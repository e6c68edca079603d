/-
The text of an address determines the address.

Each part is told from what stands behind it by the first character that it
does not hold: a scheme ends at a colon, an authority at a slash, a path at a
question mark or a hash, a query at a hash. `Proper` says which characters the
parts do not hold, and what a path without an authority does not begin with.
Two proper addresses of one text are the same (`text_inj`).
-/
import Stencil.Url.Basic

namespace Stencil.Url

-- ================================================================ the parts

/-- A text that holds none of some characters. -/
def Free (cs : List Char) (s : String) : Prop := ∀ c ∈ s.toList, c ∉ cs

theorem Free.mono {cs ds : List Char} {s : String} (h : Free ds s)
    (hsub : cs ⊆ ds) : Free cs s :=
  fun c hc hmem => h c hc (hsub hmem)

theorem Free.not_mem {cs : List Char} {s : String} (h : Free cs s) {c : Char}
    (hc : c ∈ cs) : c ∉ s.toList :=
  fun hmem => h c hmem hc

theorem free_empty (cs : List Char) : Free cs "" :=
  nofun

/-- What is tested of each character of a list. -/
theorem forall_mem_of_all {cs : List Char} {P : Char → Prop} [DecidablePred P]
    (h : (cs.all fun c => P c) = true) : ∀ c ∈ cs, P c :=
  fun c hc => of_decide_eq_true (List.all_eq_true.1 h c hc)

/-- The parts of an authority do not run into each other: a colon in a host is
in brackets. -/
structure ProperAuthority (a : Authority) : Prop where
  username : Free [':', '@', '/', '?', '#'] a.username
  password : ∀ p ∈ a.password, Free ['@', '/', '?', '#'] p
  host : Free ['@', '/', '?', '#'] a.host
  bracketed : ':' ∈ a.host.toList → a.host.toList.getLast? = some ']'

/-- A path does not run into what is around it. Without an authority it has to
be told from one, and from the dot that keeps it from looking like one. -/
def ProperPath (rooted : Bool) : UrlPath → Prop
  | .segments names =>
    (∀ name ∈ names, Free ['/', '?', '#'] name)
      ∧ (rooted = false → names ≠ [] ∧ "." ∉ names)
  | .flat text =>
    rooted = false ∧ Free ['?', '#'] text ∧ text.toList.head? ≠ some '/'

/-- The parts of an address do not run into each other. -/
structure Proper (u : Url) : Prop where
  scheme : Free [':'] u.scheme
  authority : ∀ a ∈ u.authority, ProperAuthority a
  path : ProperPath u.authority.isSome u.path
  query : ∀ q ∈ u.query, Free ['#'] q

-- ================================================================ splitting

/-- A mark and the characters behind it, if there are any. -/
def markedChars (c : Char) : Option (List Char) → List Char
  | some s => c :: s
  | none => []

/-- What stands before the first mark, and what stands behind it. -/
theorem split_inj {c : Char} {a a' : List Char} {b b' : Option (List Char)}
    (ha : c ∉ a) (ha' : c ∉ a')
    (h : a ++ markedChars c b = a' ++ markedChars c b') : a = a' ∧ b = b' := by
  induction a generalizing a' with
  | nil =>
    cases a' with
    | nil =>
      refine ⟨rfl, ?_⟩
      cases b <;> cases b' <;> simp_all [markedChars]
    -- one front is shorter, so the mark would stand in the other
    | cons d a' =>
      cases b with
      | none => simp [markedChars] at h
      | some b =>
        simp only [markedChars, List.nil_append, List.cons_append,
          List.cons.injEq] at h
        simp [h.1] at ha'
  | cons d a ih =>
    cases a' with
    | nil =>
      cases b' with
      | none => simp [markedChars] at h
      | some b' =>
        simp only [markedChars, List.nil_append, List.cons_append,
          List.cons.injEq] at h
        simp [h.1] at ha
    | cons d' a' =>
      simp only [List.cons_append, List.cons.injEq] at h
      obtain ⟨rfl, h⟩ := h
      simp only [List.mem_cons, not_or] at ha ha'
      obtain ⟨rfl, hb⟩ := ih ha.2 ha'.2 h
      exact ⟨rfl, hb⟩

theorem split_cons_inj {c : Char} {a a' b b' : List Char} (ha : c ∉ a)
    (ha' : c ∉ a') (h : a ++ c :: b = a' ++ c :: b') : a = a' ∧ b = b' := by
  have h : a ++ markedChars c (some b) = a' ++ markedChars c (some b') := h
  obtain ⟨hfront, hback⟩ := split_inj ha ha' h
  exact ⟨hfront, Option.some.inj hback⟩

/-- Parts that are there and the same characters are the same. -/
theorem map_toList_inj {o o' : Option String}
    (h : o.map String.toList = o'.map String.toList) : o = o' := by
  cases o <;> cases o' <;> simp_all [String.toList_inj]

-- ================================================================ authority

theorem isEmpty_eq (s : String) : s.isEmpty = s.toList.isEmpty := by
  rw [Bool.eq_iff_iff, String.isEmpty_iff, List.isEmpty_iff,
    ← String.toList_inj, String.toList_empty]

/-- The characters of a user name and of a password, if there is one. -/
def userChars (a : Authority) : List Char :=
  a.username.toList ++ markedChars ':' (a.password.map String.toList)

/-- The characters of a host, and of a port if it is written. -/
def hostChars (a : Authority) : List Char :=
  a.host.toList ++ markedChars ':' (a.port.map fun n => Nat.toDigits 10 n)

/-- An at sign stands between the user and the host, if there is a user. -/
theorem toList_authorityText (a : Authority) :
    (authorityText a).toList
      = (if (userChars a).isEmpty then [] else userChars a ++ ['@'])
        ++ hostChars a := by
  obtain ⟨username, password, host, port⟩ := a
  cases password <;> cases port <;>
    simp [authorityText, userChars, hostChars, markedChars, isEmpty_eq,
      apply_ite String.toList]

theorem not_digit_of_mem {c : Char} {n : Nat} (hc : c.isDigit = false) :
    c ∉ Nat.toDigits 10 n := by
  intro hmem
  rw [Nat.isDigit_of_mem_toDigits (by decide) (by decide) hmem] at hc
  cases hc

/-- A host without a port is no host with one: a colon in it is in
brackets. -/
theorem host_ne_ported {host host' : List Char} {n : Nat}
    (hbracketed : ':' ∈ host → host.getLast? = some ']') :
    host ≠ host' ++ ':' :: Nat.toDigits 10 n := by
  intro h
  have hlast : host.getLast? = some ']' := hbracketed (by simp [h])
  rw [h, ← List.singleton_append, List.getLast?_append, List.getLast?_append,
    List.getLast?_eq_some_getLast Nat.toDigits_ne_nil] at hlast
  have hmem := List.getLast_mem (Nat.toDigits_ne_nil (b := 10) (n := n))
  rw [Option.some_or, Option.some_or, Option.some.injEq] at hlast
  rw [hlast] at hmem
  exact not_digit_of_mem rfl hmem

theorem hostChars_inj {a a' : Authority} (ha : ProperAuthority a)
    (ha' : ProperAuthority a') (h : hostChars a = hostChars a') :
    a.host = a'.host ∧ a.port = a'.port := by
  obtain ⟨username, password, host, port⟩ := a
  obtain ⟨username', password', host', port'⟩ := a'
  simp only [hostChars] at h
  cases port with
  | none =>
    cases port' with
    | none =>
      simp only [Option.map_none, markedChars, List.append_nil] at h
      exact ⟨String.toList_inj.1 h, rfl⟩
    | some n' =>
      simp only [Option.map_none, markedChars, List.append_nil] at h
      exact absurd h (host_ne_ported ha.bracketed)
  | some n =>
    cases port' with
    | none =>
      simp only [Option.map_none, markedChars, List.append_nil] at h
      exact absurd h.symm (host_ne_ported ha'.bracketed)
    | some n' =>
      -- the last colon is the one before the port
      have hreversed := congrArg List.reverse h
      simp only [Option.map_some, markedChars, List.reverse_append,
        List.reverse_cons, List.append_assoc, List.singleton_append]
        at hreversed
      obtain ⟨hport, hhost⟩ := split_cons_inj
        (by simpa using not_digit_of_mem rfl)
        (by simpa using not_digit_of_mem rfl) hreversed
      have hport :=
        congrArg (Nat.ofDigitChars 10 · 0) (List.reverse_inj.1 hport)
      simp only [Nat.ofDigitChars_ten_toDigits] at hport
      simp only [List.reverse_inj, String.toList_inj] at hhost
      exact ⟨hhost, congrArg some hport⟩

theorem userChars_inj {a a' : Authority} (ha : ProperAuthority a)
    (ha' : ProperAuthority a') (h : userChars a = userChars a') :
    a.username = a'.username ∧ a.password = a'.password := by
  obtain ⟨huser, hpassword⟩ := split_inj (ha.username.not_mem (by simp))
    (ha'.username.not_mem (by simp)) h
  exact ⟨String.toList_inj.1 huser, map_toList_inj hpassword⟩

/-- No at sign is in what stands before or behind the one in the middle. -/
theorem at_not_mem {a : Authority} (ha : ProperAuthority a) :
    '@' ∉ userChars a ∧ '@' ∉ hostChars a := by
  have hhost : '@' ∉ a.host.toList := ha.host.not_mem (by simp)
  have huser : '@' ∉ a.username.toList := ha.username.not_mem (by simp)
  constructor
  · unfold userChars
    cases hp : a.password with
    | none => simpa [markedChars] using huser
    | some p =>
      have hpassword : '@' ∉ p.toList := (ha.password p hp).not_mem (by simp)
      simp [markedChars, huser, hpassword]
  · unfold hostChars
    cases a.port with
    | none => simpa [markedChars] using hhost
    | some n =>
      have hport : '@' ∉ Nat.toDigits 10 n := not_digit_of_mem rfl
      simp [markedChars, hhost, hport]

theorem authorityText_inj {a a' : Authority} (ha : ProperAuthority a)
    (ha' : ProperAuthority a')
    (h : (authorityText a).toList = (authorityText a').toList) : a = a' := by
  -- behind the host, read backwards, stands the at sign or nothing
  have hmarked (b : Authority) : (authorityText b).toList.reverse
      = (hostChars b).reverse
        ++ markedChars '@' (if (userChars b).isEmpty then none
            else some (userChars b).reverse) := by
    rw [toList_authorityText]
    split <;> simp [markedChars]
  have hreversed := congrArg List.reverse h
  rw [hmarked, hmarked] at hreversed
  obtain ⟨hhost, huser⟩ := split_inj
    (by simpa using (at_not_mem ha).2) (by simpa using (at_not_mem ha').2)
    hreversed
  obtain ⟨hhost, hport⟩ := hostChars_inj ha ha' (List.reverse_inj.1 hhost)
  have huser : userChars a = userChars a' := by
    by_cases hempty : userChars a = []
    · by_cases hempty' : userChars a' = []
      · rw [hempty, hempty']
      · simp [hempty, hempty'] at huser
    · by_cases hempty' : userChars a' = []
      · simp [hempty, hempty'] at huser
      · simpa [hempty, hempty'] using huser
  obtain ⟨husername, hpassword⟩ := userChars_inj ha ha' huser
  obtain ⟨username, password, host, port⟩ := a
  obtain ⟨username', password', host', port'⟩ := a'
  simp_all

-- ==================================================================== paths

/-- The characters of names, a slash before each. -/
def slashed (names : List String) : List Char :=
  names.flatMap fun name => '/' :: name.toList

theorem toList_pathText_segments (names : List String) :
    (pathText (.segments names)).toList = slashed names := by
  simp [pathText, slashed, String.toList_join, List.flatMap_map]

/-- Names begin with a slash, if there are any. -/
theorem slashed_eq (names : List String) :
    slashed names = markedChars '/'
      (names.head?.map fun name => name.toList ++ slashed names.tail) := by
  cases names <;> rfl

theorem slashed_inj {names names' : List String}
    (hn : ∀ name ∈ names, Free ['/', '?', '#'] name)
    (hn' : ∀ name ∈ names', Free ['/', '?', '#'] name)
    (h : slashed names = slashed names') : names = names' := by
  induction names generalizing names' with
  | nil =>
    cases names' with
    | nil => rfl
    | cons name' names' => simp [slashed] at h
  | cons name names ih =>
    cases names' with
    | nil => simp [slashed] at h
    | cons name' names' =>
      have hrest : name.toList ++ slashed names
          = name'.toList ++ slashed names' := by
        simpa [slashed] using h
      rw [slashed_eq names, slashed_eq names'] at hrest
      rw [List.forall_mem_cons] at hn hn'
      obtain ⟨hname, htail⟩ := split_inj (hn.1.not_mem (by simp))
        (hn'.1.not_mem (by simp)) hrest
      have htail : slashed names = slashed names' := by
        rw [slashed_eq names, slashed_eq names', htail]
      rw [String.toList_inj.1 hname, ih hn.2 hn'.2 htail]

/-- None of the marks behind an authority is in it. -/
theorem mark_not_mem_authorityText {a : Authority} (ha : ProperAuthority a)
    {c : Char} (hc : c ∈ ['/', '?', '#']) : c ∉ (authorityText a).toList := by
  have hother : c ≠ '@' ∧ c ≠ ':' ∧ c.isDigit = false := by
    simp only [List.mem_cons, List.not_mem_nil, or_false] at hc
    rcases hc with rfl | rfl | rfl <;> decide
  have huser : c ∉ userChars a := by
    have hname : c ∉ a.username.toList :=
      (ha.username.mono (by simp)).not_mem hc
    unfold userChars
    cases hp : a.password with
    | none => simpa [markedChars] using hname
    | some p =>
      have hpassword : c ∉ p.toList :=
        ((ha.password p hp).mono (by simp)).not_mem hc
      simp [markedChars, hname, hpassword, hother]
  have hhost : c ∉ hostChars a := by
    have hname : c ∉ a.host.toList := (ha.host.mono (by simp)).not_mem hc
    unfold hostChars
    cases a.port with
    | none => simpa [markedChars] using hname
    | some n =>
      have hport := not_digit_of_mem (n := n) hother.2.2
      simp [markedChars, hname, hport, hother]
  rw [toList_authorityText]
  split <;> simp [huser, hhost, hother]

/-- What stands between the scheme and the query. -/
def frontChars (authority : Option Authority) (path : UrlPath) : List Char :=
  (match authority with
    | some a => ['/', '/'] ++ (authorityText a).toList
    | none => if looksLikeAuthority path then ['/', '.'] else [])
    ++ (pathText path).toList

/-- A path without an authority is not taken for one with it. -/
theorem front_ne_rooted {path : UrlPath} (h : ProperPath false path)
    (s : List Char) : frontChars none path ≠ '/' :: '/' :: s := by
  intro he
  unfold frontChars at he
  cases path with
  | flat text =>
    obtain ⟨-, -, hhead⟩ := h
    refine hhead ?_
    have he : text.toList = '/' :: '/' :: s := he
    rw [he]
    rfl
  | segments names =>
    obtain ⟨hfree, hplain⟩ := h
    rw [toList_pathText_segments] at he
    -- a path that begins with an empty name could be taken for an authority,
    -- unless it is marked
    match names, hplain rfl with
    | ["" ], _ => simp [looksLikeAuthority, slashed] at he
    | "" :: _ :: _, _ => simp [looksLikeAuthority] at he
    | name :: names, _ =>
      by_cases hname : name = ""
      · subst hname
        cases names <;> simp [looksLikeAuthority, slashed] at he
      · have hlooks :
            looksLikeAuthority (.segments (name :: names)) = false := by
          unfold looksLikeAuthority
          split
          · next heq =>
            cases heq
            exact absurd rfl hname
          · rfl
        have hslash := (hfree name (by simp)).not_mem (c := '/') (by simp)
        obtain ⟨c, cs, hcs⟩ := List.exists_cons_of_ne_nil
          (mt String.toList_eq_nil_iff.1 hname)
        simp [hlooks, slashed, hcs] at he hslash
        exact hslash.1 he.1.symm

/-- A path that looks like an authority is told from others by the dot before
it: none of them begins with the name of that dot. -/
theorem dotted_ne_slashed {names names' : List String}
    (hfree : ∀ name ∈ names', Free ['/', '?', '#'] name) (hdot : "." ∉ names') :
    '/' :: '.' :: slashed names ≠ slashed names' := by
  intro he
  cases names' with
  | nil => simp [slashed] at he
  | cons name' names' =>
    have hrest : ['.'] ++ slashed names = name'.toList ++ slashed names' := by
      simpa [slashed] using he
    rw [slashed_eq names, slashed_eq names'] at hrest
    obtain ⟨hname, -⟩ := split_inj (by simp)
      ((hfree name' (by simp)).not_mem (by simp)) hrest
    have hname : "." = name' := String.toList_inj.1 hname
    exact hdot (by simp [hname])

/-- Paths without an authority are told from each other. -/
theorem front_inj {path path' : UrlPath} (h : ProperPath false path)
    (h' : ProperPath false path')
    (he : frontChars none path = frontChars none path') : path = path' := by
  -- names begin with a slash, which a flat path does not
  have hflat {text : String} {names : List String}
      (ht : ProperPath false (.flat text))
      (hn : ProperPath false (.segments names)) :
      frontChars none (.flat text) ≠ frontChars none (.segments names) := by
    intro he
    refine ht.2.2 ?_
    have he : text.toList = _ := he
    rw [he]
    unfold frontChars
    rw [toList_pathText_segments]
    obtain ⟨name, rest, rfl⟩ := List.exists_cons_of_ne_nil (hn.2 rfl).1
    dsimp only
    split <;> simp [slashed]
  cases path with
  | flat text =>
    cases path' with
    | flat text' => exact congrArg UrlPath.flat (String.toList_inj.1 he)
    | segments names' => exact absurd he (hflat h h')
  | segments names =>
    cases path' with
    | flat text' => exact absurd he.symm (hflat h' h)
    | segments names' =>
      unfold frontChars at he
      rw [toList_pathText_segments, toList_pathText_segments] at he
      cases hlooks : looksLikeAuthority (.segments names) <;>
        cases hlooks' : looksLikeAuthority (.segments names') <;>
        simp only [hlooks, hlooks', if_true, if_false, List.nil_append,
          Bool.false_eq_true, List.cons_append] at he
      · rw [slashed_inj h.1 h'.1 he]
      · exact absurd he.symm (dotted_ne_slashed h.1 (h.2 rfl).2)
      · exact absurd he (dotted_ne_slashed h'.1 (h'.2 rfl).2)
      · rw [slashed_inj h.1 h'.1 (by simpa using he)]

/-- An authority and a path are told from others. -/
theorem frontChars_inj {a a' : Option Authority} {path path' : UrlPath}
    (ha : ∀ x ∈ a, ProperAuthority x) (ha' : ∀ x ∈ a', ProperAuthority x)
    (h : ProperPath a.isSome path) (h' : ProperPath a'.isSome path')
    (he : frontChars a path = frontChars a' path') : a = a' ∧ path = path' := by
  cases a with
  | none =>
    cases a' with
    | none => exact ⟨rfl, front_inj h h' he⟩
    | some x' => exact absurd he (front_ne_rooted h _)
  | some x =>
    cases a' with
    | none => exact absurd he.symm (front_ne_rooted h' _)
    | some x' =>
      cases path with
      | flat text => exact absurd h.1 (by simp)
      | segments names =>
        cases path' with
        | flat text' => exact absurd h'.1 (by simp)
        | segments names' =>
          have hx := ha x rfl
          have hx' := ha' x' rfl
          unfold frontChars at he
          rw [toList_pathText_segments, toList_pathText_segments] at he
          have he : (authorityText x).toList ++ slashed names
              = (authorityText x').toList ++ slashed names' := by
            simpa using he
          rw [slashed_eq names, slashed_eq names'] at he
          -- an authority has no slash, so it ends at the first one
          obtain ⟨hauthority, hpath⟩ := split_inj
            (mark_not_mem_authorityText hx (by simp))
            (mark_not_mem_authorityText hx' (by simp)) he
          have hpath : slashed names = slashed names' := by
            rw [slashed_eq names, slashed_eq names', hpath]
          rw [authorityText_inj hx hx' hauthority, slashed_inj h.1 h'.1 hpath]
          exact ⟨rfl, rfl⟩

/-- No mark of a query or a fragment stands before them. -/
theorem mark_not_mem_front {a : Option Authority} {path : UrlPath}
    (ha : ∀ x ∈ a, ProperAuthority x) (h : ProperPath a.isSome path) {c : Char}
    (hc : c ∈ ['?', '#']) : c ∉ frontChars a path := by
  have hother : c ≠ '/' ∧ c ≠ '.' := by
    simp only [List.mem_cons, List.not_mem_nil, or_false] at hc
    rcases hc with rfl | rfl <;> decide
  have hpath : c ∉ (pathText path).toList := by
    cases path with
    | flat text => exact h.2.1.not_mem hc
    | segments names =>
      rw [toList_pathText_segments]
      intro hmem
      obtain ⟨name, hname, hmem⟩ := List.mem_flatMap.1 hmem
      rcases List.mem_cons.1 hmem with heq | hmem
      · exact hother.1 heq
      · exact ((h.1 name hname).mono (by simp)).not_mem hc hmem
  unfold frontChars
  cases a with
  | none =>
    dsimp only
    split <;> simp [hpath, hother]
  | some x =>
    have hauthority := mark_not_mem_authorityText (ha x rfl)
      (List.mem_cons_of_mem '/' hc)
    simp [hpath, hother, hauthority]

theorem toList_front (u : Url) :
    u.text.toList = u.scheme.toList ++ ':' :: (frontChars u.authority u.path
      ++ (markedChars '?' (u.query.map String.toList)
        ++ markedChars '#' (u.fragment.map String.toList))) := by
  obtain ⟨scheme, authority, path, query, fragment⟩ := u
  cases authority <;> cases query <;> cases fragment <;>
    simp [text, frontChars, marked, markedChars, apply_ite String.toList]

/-- An address that can be read is determined by its text. -/
theorem text_inj {u u' : Url} (hu : u.Proper) (hu' : u'.Proper)
    (h : u.text = u'.text) : u = u' := by
  have hchars := congrArg String.toList h
  rw [toList_front, toList_front] at hchars
  obtain ⟨hscheme, hchars⟩ := split_cons_inj (hu.scheme.not_mem (by simp))
    (hu'.scheme.not_mem (by simp)) hchars
  rw [← List.append_assoc, ← List.append_assoc] at hchars
  -- read from the front: a scheme has no colon, and what is in front of the
  -- fragment no number sign
  have hquery {v : Url} (hv : v.Proper) :
      '#' ∉ frontChars v.authority v.path
        ++ markedChars '?' (v.query.map String.toList) := by
    have hfront := mark_not_mem_front hv.authority hv.path (c := '#') (by simp)
    cases hq : v.query with
    | none => simpa [markedChars] using hfront
    | some q => simp [markedChars, hfront, (hv.query q hq).not_mem (c := '#')]
  obtain ⟨hchars, hfragment⟩ := split_inj (hquery hu) (hquery hu') hchars
  obtain ⟨hfront, hquery⟩ := split_inj
    (mark_not_mem_front hu.authority hu.path (by simp))
    (mark_not_mem_front hu'.authority hu'.path (by simp)) hchars
  obtain ⟨hauthority, hpath⟩ := frontChars_inj hu.authority hu'.authority
    hu.path hu'.path hfront
  obtain ⟨scheme, authority, path, query, fragment⟩ := u
  obtain ⟨scheme', authority', path', query', fragment'⟩ := u'
  have hscheme := String.toList_inj.1 hscheme
  have hquery := map_toList_inj hquery
  have hfragment := map_toList_inj hfragment
  simp_all

end Stencil.Url
