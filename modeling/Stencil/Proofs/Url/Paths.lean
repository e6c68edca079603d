/-
What names in paths are made of.

A path is read piece by piece, and the pieces hold nothing that ends a name. So
no name of it does, whatever it is resolved against, if none of the names there
does. Nor is a name the dot that stands for the directory it is in, except
behind a drive, and drives are only in the paths of files, which have an
authority.
-/
import Stencil.Proofs.Url.Hosts
import Stencil.Url.Path

namespace Stencil.Url

/-- What ends a name in a path. -/
def nameEnds : List Char := ['/', '?', '#']

/-- A name ends at its end, and is not taken for what may stand before a path
that no authority roots. -/
structure ProperName (rooted : Bool) (name : String) : Prop where
  free : Free nameEnds name
  dotless : rooted = false → name ≠ "."

/-- Names of a path, in either order. A path without an authority has one. -/
structure ProperNames (rooted : Bool) (names : List String) : Prop where
  nonempty : names ≠ []
  proper : ∀ name ∈ names, ProperName rooted name

-- =================================================================== names

section names

variable {rooted : Bool}

theorem properName_empty : ProperName rooted "" :=
  ⟨free_empty _, fun _ => by decide⟩

theorem properNames_root : ProperNames rooted [""] :=
  ⟨by simp, by simpa using properName_empty⟩

theorem ProperNames.cons {name : String} {names : List String}
    (h : ProperName rooted name) (hnames : ∀ n ∈ names, ProperName rooted n) :
    ProperNames rooted (name :: names) :=
  ⟨by simp, List.forall_mem_cons.2 ⟨h, hnames⟩⟩

theorem ProperNames.head {name : String} {names : List String}
    (h : ProperNames rooted (name :: names)) : ProperName rooted name :=
  h.proper name List.mem_cons_self

theorem ProperNames.tail {name : String} {names : List String}
    (h : ProperNames rooted (name :: names)) :
    ∀ n ∈ names, ProperName rooted n :=
  (List.forall_mem_cons.1 h.proper).2

theorem ProperNames.reverse {names : List String}
    (h : ProperNames rooted names) : ProperNames rooted names.reverse :=
  ⟨by simpa using h.nonempty, fun name hname =>
    h.proper name (List.mem_reverse.1 hname)⟩

/-- Proper names make a proper path. -/
theorem ProperNames.path {names : List String} (h : ProperNames rooted names) :
    ProperPath rooted (.segments names) :=
  ⟨fun name hname => (h.proper name hname).free, fun hrooted =>
    ⟨h.nonempty, fun hmem => (h.proper "." hmem).dotless hrooted rfl⟩⟩

/-- The names of a proper path are proper. -/
theorem properName_of_path {names : List String}
    (h : ProperPath rooted (.segments names)) :
    ∀ name ∈ names, ProperName rooted name :=
  fun name hname => ⟨h.1 name hname, fun hrooted hdot =>
    (h.2 hrooted).2 (hdot ▸ hname)⟩

/-- A drive is a proper name. -/
theorem properName_drive {c : Char} (hc : c.isAlpha) :
    ProperName rooted (String.ofList [c, ':']) := by
  refine ⟨fun e he => ?_, fun _ hdot => ?_⟩
  · rw [String.toList_ofList] at he
    intro hends
    simp only [nameEnds, List.mem_cons, List.not_mem_nil, or_false] at he hends
    rcases he with rfl | rfl
    · rcases hends with rfl | rfl | rfl <;> exact absurd hc (by decide)
    · revert hends
      decide
  · have hlength := congrArg (·.toList.length) hdot
    simp at hlength

-- ================================================================= escapes

/-- A character is escaped behind a percent sign, or not at all. -/
theorem escapeChar_eq (set : EscapeSet) (c : Char) :
    escapeChar set c = [c] ∨ ∃ cs, escapeChar set c = '%' :: cs := by
  unfold escapeChar
  split
  · have hbytes : String.utf8EncodeChar c ≠ [] := by
      intro hnil
      have hlength := String.length_utf8EncodeChar c
      have hpos := c.utf8Size_pos
      rw [hnil] at hlength
      simp at hlength
      omega
    obtain ⟨b, bs, hbs⟩ := List.exists_cons_of_ne_nil hbytes
    rw [hbs]
    exact .inr ⟨_, rfl⟩
  · exact .inl rfl

/-- Nothing but a dot is escaped to a dot. -/
theorem escape_ne_dot {set : EscapeSet} {s : List Char} (h : s ≠ ['.']) :
    escape set s ≠ "." := by
  intro hdot
  have hchars : s.flatMap (escapeChar set) = ['.'] := by
    rw [← String.toList_ofList (l := s.flatMap _)]
    exact congrArg String.toList hdot
  cases s with
  | nil => simp at hchars
  | cons c s =>
    rw [List.flatMap_cons] at hchars
    rcases escapeChar_eq set c with hc | ⟨cs, hc⟩
    · rw [hc, List.singleton_append, List.cons.injEq] at hchars
      obtain ⟨rfl, hrest⟩ := hchars
      cases s with
      | nil => exact h rfl
      | cons d s =>
        rcases escapeChar_eq set d with hd | ⟨ds, hd⟩ <;> simp [hd] at hrest
    · rw [hc, List.cons_append, List.cons.injEq] at hchars
      exact absurd hchars.1 (by decide)

/-- An escaped piece of a path does not end a name. -/
theorem free_piece {s : List Char} (hslash : '/' ∉ s) :
    Free nameEnds (escape inPath s) := by
  refine free_escape (forall_mem_of_all (by decide)) fun c hc => ?_
  simp only [nameEnds, List.mem_cons, List.not_mem_nil, or_false] at hc
  rcases hc with rfl | rfl | rfl
  · exact .inr hslash
  · exact .inl (by decide)
  · exact .inl (by decide)

theorem properName_escape {s : List Char} (hslash : '/' ∉ s)
    (hdot : rooted = false → s ≠ ['.']) :
    ProperName rooted (escape inPath s) :=
  ⟨free_piece hslash, fun hrooted => escape_ne_dot (hdot hrooted)⟩

-- =================================================================== trail

namespace ProperNames

variable {trail : Trail} {k : SchemeKind} {s : List Char}

theorem settle (h : ProperNames rooted trail) :
    ProperNames rooted trail.settle := by
  unfold Trail.settle
  split
  · exact h
  · exact .cons properName_empty h.proper

theorem leave (h : ProperNames rooted trail) :
    ProperNames rooted trail.leave := by
  unfold Trail.leave
  split
  · split
    · exact h
    · refine .cons properName_empty fun n hn => ?_
      exact h.tail n (List.mem_cons_of_mem _ hn)
  · exact h

/-- What is written behind a name does not make it a dot: it is no dot itself,
and the name is none. -/
theorem write (h : ProperNames rooted trail) (hslash : '/' ∉ s)
    (hdot : rooted = false → s ≠ ['.']) :
    ProperNames rooted (trail.write (escape inPath s)) := by
  cases trail with
  | nil => exact absurd rfl h.nonempty
  | cons name outer =>
    refine .cons ⟨fun c hc => ?_, fun hrooted he => ?_⟩ h.tail
    · rw [String.toList_append, List.mem_append] at hc
      rcases hc with hc | hc
      · exact h.head.free c hc
      · exact free_piece hslash c hc
    · have hchars := congrArg String.toList he
      rw [String.toList_append] at hchars
      rcases List.append_eq_singleton_iff.1 hchars with ⟨-, hs⟩ | ⟨hname, -⟩
      · exact escape_ne_dot (hdot hrooted) (String.toList_inj.1 hs)
      · exact h.head.dotless hrooted (String.toList_inj.1 hname)

theorem closeDrive (h : ProperNames rooted trail) (segment : List Char) :
    ProperNames rooted (Url.closeDrive k segment trail) := by
  unfold Url.closeDrive
  split
  · split
    · exact .cons properName_empty h.proper
    · exact h
  · exact h

theorem writeSegment {w : Walk} (h : ProperNames rooted w.trail)
    (hslash : '/' ∉ s) (hdot : s ≠ ['.']) :
    ProperNames rooted (Url.writeSegment k w s).trail := by
  unfold Url.writeSegment
  split
  · next c d heq =>
    split
    · next hdrive =>
      simp only [isDrive, Bool.and_eq_true] at hdrive
      exact .cons (properName_drive hdrive.1) nofun
    · exact .cons (properName_escape hslash fun _ => hdot) nofun
  · exact h.write hslash fun _ => hdot

theorem readSegment {w : Walk} (h : ProperNames rooted w.trail)
    {segment : List Char} (hslash : '/' ∉ segment) (more : Bool) :
    ProperNames rooted (Url.readSegment k w segment more).trail := by
  -- a drive letter that was read is closed first, which keeps the names proper
  have hclosed := h.closeDrive (k := k) segment
  have hjoined : '/' ∉ joined segment :=
    fun hmem => hslash (List.mem_filter.1 hmem).1
  unfold Url.readSegment
  dsimp only
  split
  · cases more with
    | true => exact hclosed.leave.settle
    | false => exact hclosed.leave
  · split
    · exact hclosed.settle
    · next hhere =>
      have hdot : joined segment ≠ ['.'] := by
        intro he
        rw [he] at hhere
        exact hhere (by decide)
      have hwritten := writeSegment (k := k)
        (w := { w with trail := _ }) hclosed hjoined hdot
      cases more with
      | true => exact .cons properName_empty hwritten.proper
      | false => exact hwritten

end ProperNames

theorem mem_of_first {s rest : List Char} {c : Char}
    (h : first? s = some (c, rest)) : c ∈ s ∧ rest ⊆ s := by
  unfold first? at h
  have hsub : s.dropWhile isBreak ⊆ s := (List.dropWhile_suffix _).subset
  split at h
  · cases h
  · next heq =>
    cases h
    rw [heq] at hsub
    exact ⟨hsub List.mem_cons_self,
      fun d hd => hsub (List.mem_cons_of_mem _ hd)⟩

/-- A drive is a letter and a colon, and behind it stand characters of the
segment. -/
theorem brokenDrive_eq {segment rest : List Char} {drive : String}
    (h : brokenDrive? segment = some (drive, rest)) :
    (∃ c : Char, c.isAlpha ∧ drive = String.ofList [c, ':'])
      ∧ rest ⊆ segment := by
  unfold brokenDrive? at h
  split at h
  · cases h
  · next c s hfirst =>
    split at h
    · next b s' hbehind =>
      split at h
      · next hdrive =>
        cases h
        simp only [Bool.and_eq_true] at hdrive
        refine ⟨⟨c, hdrive.1.1, rfl⟩, fun d hd => ?_⟩
        have hmem : d ∈ s.dropWhile isBreak := by
          rw [hbehind]
          exact List.mem_cons_of_mem _ (List.mem_cons_of_mem _
            (List.mem_filter.1 hd).1)
        exact (mem_of_first hfirst).2 ((List.dropWhile_suffix _).subset hmem)
      · cases h
    · cases h

namespace ProperNames

variable {k : SchemeKind}

/-- Only in the path of a file, which is rooted, may a dot stand behind a
drive. -/
theorem readFirst (hk : k = .file → rooted = true) {w : Walk}
    (h : ProperNames rooted w.trail) {segment : List Char}
    (hslash : '/' ∉ segment) (more : Bool) :
    ProperNames rooted (Url.readFirst k w segment more).trail := by
  unfold Url.readFirst
  split
  · next drive rest _ hbroken =>
    obtain ⟨⟨c, hc, rfl⟩, hrest⟩ := brokenDrive_eq hbroken
    have hname : ProperName rooted (escape inPath rest) :=
      properName_escape (fun hmem => hslash (hrest hmem)) fun hrooted => by
        rw [hk rfl] at hrooted
        cases hrooted
    have htrail :
        ProperNames rooted [escape inPath rest, String.ofList [c, ':']] :=
      .cons hname (by simpa using properName_drive hc)
    cases more with
    | true => exact .cons properName_empty htrail.proper
    | false => exact htrail
  · exact h.readSegment hslash more

theorem readSegments (hk : k = .file → rooted = true) {w : Walk}
    (h : ProperNames rooted w.trail) {segments : List (List Char)}
    (hslash : ∀ segment ∈ segments, '/' ∉ segment) :
    ProperNames rooted (Url.readSegments k w segments).trail := by
  fun_induction Url.readSegments k w segments with
  | case1 w => exact h
  | case2 w segment =>
    exact h.readFirst hk (hslash segment List.mem_cons_self) false
  | case3 w segment rest _ ih =>
    rw [List.forall_mem_cons] at hslash
    exact ih (h.readFirst hk hslash.1 true) hslash.2

theorem dropEmpty {names : List String} (h : ProperNames rooted names) :
    ProperNames rooted (Url.dropEmpty names) := by
  unfold Url.dropEmpty
  split
  · exact properNames_root
  · next hnames =>
    refine ⟨fun hnil => hnames hnil, fun name hname => h.proper name ?_⟩
    exact (List.dropWhile_suffix _).subset hname

/-- A path resolved against proper names has proper names. -/
theorem resolvePath (hk : k = .file → rooted = true) {start : Trail}
    (h : ProperNames rooted start) (s : List Char) :
    ProperNames rooted (Url.resolvePath k start s).1 := by
  have hslash : ∀ segment ∈ Text.pieces k.separates s, '/' ∉ segment := by
    intro segment hsegment hmem
    have hkept := (Text.mem_of_mem_pieces hsegment hmem).2
    simp [SchemeKind.separates] at hkept
  have hread := (readSegments hk (w := ⟨start, false⟩) h hslash).reverse
  unfold Url.resolvePath
  dsimp only
  split
  · exact hread.dropEmpty
  · exact hread

end ProperNames

end names

end Stencil.Url
