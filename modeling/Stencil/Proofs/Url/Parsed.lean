/-
Addresses that arise.

An address is that of a file, or it is read from a text, perhaps against one
that has arisen before. However it arises, its parts do not run into each other
(`Arises.proper`); so of the addresses that arise, each is known by its text
(`Arises.text_inj`).
-/
import Mathlib.Data.List.TakeDrop
import Mathlib.Data.List.TakeWhile
import Stencil.Proofs.Url.Paths
import Stencil.Url.FilePath
import Stencil.Url.Parse

namespace Stencil.Url

/-- An address whose parts do not run into each other. Files have an
authority. -/
structure Sound (u : Url) : Prop where
  proper : u.Proper
  rooted : u.kind = .file → u.authority.isSome = true

-- ================================================================== scheme

/-- What may stand in a scheme is no colon, nor is it in lower case. -/
theorem toLower_ne_colon {c : Char} (h : isSchemePart c = true) :
    c.toLower ≠ ':' := by
  intro he
  unfold Char.toLower at he
  split at he
  · next hupper =>
    have hval : c.val + 32 = 58 := congrArg Char.val he
    have hleast : 65 ≤ c.val := hupper.1
    have hmost : c.val ≤ 90 := hupper.2
    rw [UInt32.le_iff_toNat_le] at hleast hmost
    have hnat := congrArg UInt32.toNat hval
    rw [UInt32.toNat_add] at hnat
    simp at hleast hmost hnat
    omega
  · subst he
    revert h
    decide

/-- No character before the split is one to split at. -/
theorem kept_of_splitBefore {ends : Char → Bool} {s front back : List Char}
    (h : splitBefore ends s = (front, back)) : ∀ c ∈ front, ends c = false := by
  intro c hc
  unfold splitBefore at h
  rw [List.span_eq_takeWhile_dropWhile] at h
  cases h
  simpa using List.mem_takeWhile_imp hc

theorem free_scheme {s rest : List Char} {scheme : String}
    (h : splitScheme? s = some (scheme, rest)) : Free [':'] scheme := by
  unfold splitScheme? at h
  split at h
  · next front rest' heq =>
    dsimp only at h
    split at h
    · cases h
      intro c hc
      change c ∈ ((String.ofList (joined front)).map Char.toLower).toList at hc
      rw [String.toList_map, String.toList_ofList] at hc
      obtain ⟨d, hd, rfl⟩ := List.mem_map.1 hc
      obtain ⟨hfront, hunbroken⟩ := List.mem_filter.1 hd
      have hends := kept_of_splitBefore heq d hfront
      rw [List.mem_singleton]
      refine toLower_ne_colon ?_
      rw [Bool.not_eq_true'] at hunbroken
      simpa [hunbroken] using hends
    · cases h
  · cases h

-- ======================================================= query and fragment

theorem free_tail (k : SchemeKind) (s : List Char) :
    ∀ q ∈ (tail k s).1, Free ['#'] q := by
  intro q hq
  unfold tail at hq
  dsimp only at hq
  split at hq
  · cases hq
  · cases hq
    refine free_escape (forall_mem_of_all (by decide)) fun c hc => .inl ?_
    rw [List.mem_singleton] at hc
    subst hc
    split <;> decide

-- ============================================================== authority

/-- What stands before a user name's end. -/
theorem free_user (s : List Char) :
    Free [':', '@', '/', '?', '#'] (escape inUserinfo s) :=
  free_escape (forall_mem_of_all (by decide)) fun c hc =>
    .inl (forall_mem_of_all (by decide) c hc)

theorem proper_userinfo (s : List Char) :
    Free [':', '@', '/', '?', '#'] (userinfo s).1
      ∧ ∀ p ∈ (userinfo s).2, Free ['@', '/', '?', '#'] p := by
  unfold userinfo
  split
  · exact ⟨free_user s, nofun⟩
  · next user password _ =>
    refine ⟨free_user user, fun p hp => ?_⟩
    dsimp only at hp
    split at hp
    · cases hp
    · cases hp
      exact (free_user password).mono (by simp)

theorem properHost_hostAndPort {k : SchemeKind} {s rest : List Char}
    {host : String} {port : Option Nat}
    (h : hostAndPort? k s = some (host, port, rest)) : ProperHost host := by
  have hkept {read : String} {p : Option (Option Nat × List Char)} {b : Bool}
      (h : (if b then none
        else p.bind fun x => some (read, x.1, x.2)) = some (host, port, rest)) :
      read = host := by
    split at h
    · cases h
    · obtain ⟨x, -, h⟩ := Option.bind_eq_some_iff.1 h
      cases h
      rfl
  unfold hostAndPort? at h
  dsimp only at h
  split at h
  · obtain ⟨read, hread, h⟩ := Option.bind_eq_some_iff.1 h
    exact hkept h ▸ properHost_special hread
  · obtain ⟨read, hread, h⟩ := Option.bind_eq_some_iff.1 h
    exact hkept h ▸ properHost_plain hread

theorem proper_authority {k : SchemeKind} {more : Bool} {s rest : List Char}
    {a : Authority} (h : authority? k more s = some (a, rest)) :
    ProperAuthority a := by
  unfold authority? at h
  split at h
  · obtain ⟨⟨host, port, rest'⟩, hread, h⟩ := Option.bind_eq_some_iff.1 h
    cases h
    have hhost := properHost_hostAndPort hread
    exact ⟨free_empty _, nofun, hhost.free, hhost.bracketed⟩
  · next front back _ =>
    split at h
    · cases h
    · have huser := proper_userinfo (joined front)
      rcases hpair : userinfo (joined front) with ⟨user, password⟩
      rw [hpair] at h huser
      obtain ⟨⟨host, port, rest'⟩, hread, h⟩ := Option.bind_eq_some_iff.1 h
      have hhost := properHost_hostAndPort hread
      dsimp only at h
      split at h
      · cases h
      · cases h
        exact ⟨huser.1, huser.2, hhost.free, hhost.bracketed⟩

/-- A file is on a host and nothing else. -/
theorem proper_host {host : String} (h : ProperHost host) :
    ∀ a ∈ some (Authority.mk "" none host none), ProperAuthority a := by
  intro a ha
  cases ha
  exact ⟨free_empty _, nofun, h.free, h.bracketed⟩

-- ========================================================== whole addresses

theorem properPath_rooted (k : SchemeKind) (s : List Char) :
    ProperPath true (.segments (rootedPath k s).1) := by
  unfold rootedPath
  split
  · dsimp only
    split
    · exact properNames_root.path
    · exact ⟨by simp, by simp⟩
  · exact (properNames_root.resolvePath (fun _ => rfl) _).path

theorem sound_withAuthority {scheme : String} {s : List Char} {u : Url}
    (hscheme : Free [':'] scheme) (h : withAuthority? scheme s = some u) :
    u.Sound := by
  unfold withAuthority? at h
  dsimp only at h
  obtain ⟨⟨a, begun⟩, hread, h⟩ := Option.bind_eq_some_iff.1 h
  cases h
  refine ⟨⟨hscheme, fun b hb => ?_, properPath_rooted _ _, free_tail _ _⟩,
    fun _ => rfl⟩
  cases hb
  exact proper_authority hread

/-- A text that begins with a slash when escaped begins with one. -/
theorem head_of_escape {set : EscapeSet} {s : List Char}
    (h : (escape set s).toList.head? = some '/') : s.head? = some '/' := by
  rw [escape, String.toList_ofList] at h
  cases s with
  | nil => cases h
  | cons c s =>
    rw [List.flatMap_cons] at h
    rcases escapeChar_eq set c with hc | ⟨cs, hc⟩
    · rw [hc] at h
      exact h
    · rw [hc] at h
      exact absurd h (by simp)

/-- The first character of a text without its breaks is the first that is no
break. -/
theorem first_of_joined {s : List Char} {c : Char}
    (h : (joined s).head? = some c) : ∃ rest, first? s = some (c, rest) := by
  unfold first?
  induction s with
  | nil => cases h
  | cons d s ih =>
    unfold joined at h
    rw [List.filter_cons] at h
    cases hd : isBreak d with
    | true =>
      rw [List.dropWhile_cons_of_pos hd]
      rw [if_neg (by simp [hd])] at h
      exact ih h
    | false =>
      rw [if_pos (by simp [hd]), List.head?_cons, Option.some.injEq] at h
      rw [List.dropWhile_cons_of_neg (by simp [hd])]
      exact ⟨s, by rw [h]⟩

/-- A path without an authority does not begin with a slash if it is flat. -/
theorem sound_withoutAuthority {scheme : String} (s : List Char)
    (hscheme : Free [':'] scheme) (hkind : SchemeKind.ofName scheme = .plain) :
    (withoutAuthority scheme s).Sound := by
  have hplain : SchemeKind.plain ≠ .file := by decide
  unfold withoutAuthority
  refine ⟨⟨hscheme, nofun, ?_, free_tail _ _⟩, fun hfile =>
    absurd (hkind.symm.trans hfile) hplain⟩
  rcases hsplit : splitBefore endsPath s with ⟨path, back⟩
  dsimp only
  split
  · exact (properNames_root.resolvePath (absurd · hplain) _).path
  · next hflat =>
    have hkept := kept_of_splitBefore hsplit
    have hmarks : ∀ c ∈ ['?', '#'], c ∉ escapeMarks :=
      forall_mem_of_all (by decide)
    refine ⟨rfl, free_escape hmarks fun c hc => .inr fun hmem => ?_,
      fun hhead => ?_⟩
    · have hends : ∀ c ∈ ['?', '#'], endsPath c = true :=
        forall_mem_of_all (by decide)
      have hend := hends c hc
      rw [hkept c (List.mem_filter.1 hmem).1] at hend
      cases hend
    · obtain ⟨rest, hfirst⟩ := first_of_joined (head_of_escape hhead)
      exact hflat rest hfirst

theorem sound_plain {scheme : String} {s : List Char} {u : Url}
    (hscheme : Free [':'] scheme) (hkind : SchemeKind.ofName scheme = .plain)
    (h : plain? scheme s = some u) : u.Sound := by
  unfold plain? at h
  split at h
  · exact sound_withAuthority hscheme h
  · cases h
    exact sound_withoutAuthority s hscheme hkind

-- ================================================================= relative

section relative

variable {base u : Url} {s : List Char}

theorem sound_withPath (h : base.Sound) {names : List String}
    (hnames : ProperNames base.authority.isSome names) (back : List Char) :
    (base.withPath names back).Sound :=
  ⟨⟨h.proper.scheme, h.proper.authority, hnames.path, free_tail _ _⟩, h.rooted⟩

theorem sound_withQuery (h : base.Sound) (back : List Char) :
    (base.withQuery back).Sound :=
  ⟨⟨h.proper.scheme, h.proper.authority, h.proper.path, free_tail _ _⟩,
    h.rooted⟩

/-- Nothing is asked of a fragment. -/
theorem sound_fragment (h : base.Sound) (fragment : Option String) :
    Sound { base with fragment := fragment } :=
  ⟨⟨h.proper.scheme, h.proper.authority, h.proper.path, h.proper.query⟩,
    h.rooted⟩

theorem sound_withFragment (h : base.Sound) (s : List Char) :
    (base.withFragment s).Sound :=
  sound_fragment h _

theorem properName_names (h : base.Sound) :
    ∀ name ∈ base.names, ProperName base.authority.isSome name := by
  have hpath := h.proper.path
  unfold names
  cases hp : base.path with
  | segments names =>
    rw [hp] at hpath
    exact properName_of_path hpath
  | flat text => exact nofun

theorem properNames_directory (h : base.Sound) :
    ProperNames base.authority.isSome base.directory := by
  have hnames := properName_names h
  unfold directory
  split
  · exact properNames_root
  · next name outer heq =>
    have hall : ∀ n ∈ name :: outer, ProperName base.authority.isSome n :=
      fun n hn => hnames n (List.mem_reverse.1 (heq ▸ hn))
    split
    · exact ⟨by simp, hall⟩
    · exact .cons properName_empty (List.forall_mem_cons.1 hall).2

theorem sound_withRelativePath (h : base.Sound) {start : Trail}
    (hstart : ProperNames base.authority.isSome start) (s : List Char) :
    (base.withRelativePath start s).Sound :=
  sound_withPath h (hstart.resolvePath h.rooted _) _

theorem sound_relative (hbase : base.Sound) (h : relative? base s = some u) :
    u.Sound := by
  unfold relative? at h
  split at h
  · cases h
    exact sound_fragment hbase none
  · cases h
    exact sound_withFragment hbase _
  · cases h
    exact sound_withQuery hbase _
  · split at h
    · split at h
      · exact sound_withAuthority hbase.proper.scheme h
      · split at h
        · exact sound_withAuthority hbase.proper.scheme h
        · cases h
          exact sound_withRelativePath hbase properNames_root _
    · cases h
      exact sound_withRelativePath hbase (properNames_directory hbase) _

end relative

-- ==================================================================== files

theorem free_file : Free [':'] "file" :=
  forall_mem_of_all (by decide)

theorem sound_onHost {host : String} {start : Trail} (hhost : ProperHost host)
    (hstart : ProperNames true start) (s : List Char) (behindHost : Bool) :
    (onHost host start s behindHost).Sound := by
  have hpath (path : List Char) : ProperPath true (.segments
      (if behindHost then rootedPath .file path
        else resolvePath .file start path).1) := by
    split
    · exact properPath_rooted .file path
    · exact (hstart.resolvePath (fun _ => rfl) path).path
  refine ⟨⟨free_file, proper_host ?_, hpath _, free_tail _ _⟩, fun _ => rfl⟩
  dsimp only
  split
  · exact properHost_empty
  · exact hhost

theorem sound_fileWithHost {s : List Char} {u : Url}
    (h : fileWithHost? s = some u) : u.Sound := by
  unfold fileWithHost? at h
  dsimp only at h
  split at h
  · cases h
    exact sound_onHost properHost_empty properNames_root _ _
  · obtain ⟨host, hhost, h⟩ := Option.bind_eq_some_iff.1 h
    cases h
    exact sound_onHost (properHost_file hhost) properNames_root _ _

/-- A drive that a base begins with is in it. -/
theorem proper_fileRoot {base? : Option Url} (hbase : ∀ b ∈ base?, b.Sound)
    (hkind : ∀ b ∈ base?, b.kind = .file) (rest : List Char) :
    ProperHost (fileRoot base? rest).1
      ∧ ProperNames true (fileRoot base? rest).2 := by
  unfold fileRoot
  split
  · exact ⟨properHost_empty, properNames_root⟩
  · next base =>
    have hsound := hbase base rfl
    have hrooted := hsound.rooted (hkind base rfl)
    have hhost : ProperHost ((base.authority.map (·.host)).getD "") := by
      cases ha : base.authority with
      | none => exact properHost_empty
      | some a =>
        have hproper := hsound.proper.authority a ha
        exact ⟨hproper.host, hproper.bracketed⟩
    split
    · exact ⟨properHost_empty, properNames_root⟩
    · split
      · next name names heq =>
        have hnames := properName_names hsound
        rw [hrooted, heq] at hnames
        split
        · exact ⟨properHost_empty, .cons properName_empty
            (by simpa using hnames name List.mem_cons_self)⟩
        · exact ⟨hhost, properNames_root⟩
      · exact ⟨hhost, properNames_root⟩

theorem sound_file {base? : Option Url} (hbase : ∀ b ∈ base?, b.Sound)
    (hkind : ∀ b ∈ base?, b.kind = .file) {s : List Char} {u : Url}
    (h : file? base? s = some u) : u.Sound := by
  have hroot (rest : List Char) : (file?.fromRoot base? rest).Sound := by
    have hproper := proper_fileRoot hbase hkind rest
    exact sound_onHost hproper.1 hproper.2 _ _
  unfold file? at h
  split at h
  · split at h
    · split at h
      · split at h
        · exact sound_fileWithHost h
        · cases h
          exact hroot _
      · cases h
        exact hroot _
    · split at h
      · cases h
        exact sound_onHost properHost_empty properNames_root _ _
      · next base =>
        have hsound := hbase base rfl
        split at h
        · cases h
          exact sound_withQuery hsound _
        · split at h
          · cases h
            exact sound_withFragment hsound _
          · split at h
            · cases h
              exact sound_onHost properHost_empty properNames_root _ _
            · cases h
              exact sound_withRelativePath hsound
                (properNames_directory hsound) _
  · split at h
    · cases h
      exact sound_onHost properHost_empty properNames_root _ _
    · next base =>
      cases h
      exact sound_fragment (hbase base rfl) none

-- ==================================================================== parse

theorem sound_ofScheme {base? : Option Url} (hbase : ∀ b ∈ base?, b.Sound)
    {scheme : String} (hscheme : Free [':'] scheme) {s : List Char} {u : Url}
    (h : ofScheme? base? scheme s = some u) : u.Sound := by
  have hsame : ∀ b ∈ base?.filter (·.scheme == scheme),
      b ∈ base? ∧ b.scheme = scheme := by
    intro b hb
    obtain ⟨hmem, heq⟩ := Option.filter_eq_some_iff.1 hb
    exact ⟨hmem, by simpa using heq⟩
  unfold ofScheme? at h
  split at h
  · next hkind =>
    refine sound_file (fun b hb => hbase b (hsame b hb).1) (fun b hb => ?_) h
    unfold kind
    rw [(hsame b hb).2, hkind]
  · next hkind => exact sound_plain hscheme hkind h
  · dsimp only at h
    split at h
    · next base heq =>
      split at h
      · exact sound_relative (hbase base (hsame base heq).1) h
      · exact sound_withAuthority hscheme h
    · exact sound_withAuthority hscheme h

/-- An address read against a sound base is sound. -/
theorem sound_parse {base? : Option Url} (hbase : ∀ b ∈ base?, b.Sound)
    {text : String} {u : Url} (h : parse? base? text = some u) : u.Sound := by
  unfold parse? at h
  dsimp only at h
  split at h
  · next scheme rest hsplit =>
    exact sound_ofScheme hbase (free_scheme hsplit) h
  · split at h
    · cases h
    · next base =>
      have hsound := hbase base rfl
      split at h
      · cases h
        exact sound_withFragment hsound _
      · split at h
        · cases h
        · split at h
          · next hkind =>
            refine sound_file hbase (fun b hb => ?_) h
            cases hb
            exact hkind
          · exact sound_relative hsound h

theorem sound_ofFilePath (names : List String) : (ofFilePath names).Sound := by
  refine ⟨⟨free_file, proper_host properHost_empty, ⟨fun name hname => ?_,
    nofun⟩, nofun⟩, fun _ => rfl⟩
  obtain ⟨n, -, rfl⟩ := List.mem_map.1 hname
  exact free_escape (forall_mem_of_all (by decide)) fun c hc =>
    .inl (forall_mem_of_all (by decide) c hc)

-- ================================================================ addresses

/-- The addresses that there are: of files, and read from texts, perhaps
against another one. -/
inductive Arises : Url → Prop
  | file (names : List String) : Arises (ofFilePath names)
  | read {base? : Option Url} {text : String} {u : Url}
    (hbase : ∀ b, base? = some b → Arises b)
    (h : parse? base? text = some u) : Arises u

theorem Arises.sound {u : Url} (h : u.Arises) : u.Sound := by
  induction h with
  | file names => exact sound_ofFilePath names
  | read _ h ih => exact sound_parse ih h

/-- Addresses of one text are the same. -/
theorem Arises.text_inj {u u' : Url} (h : u.Arises) (h' : u'.Arises)
    (htext : u.text = u'.text) : u = u' :=
  Url.text_inj h.sound.proper h'.sound.proper htext

end Stencil.Url
