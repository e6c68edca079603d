/-
Loads that share a cache.

A load takes three steps: it looks its address up; if nothing is there it
fetches a text and parses it; and it inserts the document that it then has.
Between two of them other loads take theirs, and the texts at an address may
change, so two loads of one address can both find nothing and parse different
texts. They return the same document all the same, because an insertion gives
back the document that is there: once a document is given out for a key it is
what the cache holds for that key, and no step takes it away (`stays_step`).

Every step is given a source of its own, the one that serves if the step is a
fetch. So nothing is assumed about what a source gives out, or about which load
asks which source.
-/
import Stencil.Loading.Loader

namespace Stencil.Loading

open Markup (Document Tree)

-- ============================================================ the steps

/-- How far a load has come. -/
inductive Stage where
  | asked
  | missed
  | parsed (root : Tree)
  | ended (result : Except Error Document)

/-- What a step tells about its key. -/
inductive Answer where
  /-- Nothing is told: a load begins, or has ended before. -/
  | idle
  /-- The cache has no document. -/
  | absent
  /-- A document is parsed, and not in the cache yet. -/
  | fetched
  | failed (e : Error)
  | gave (d : Document)

/-- What the next step of a load tells, how far the load is then, and the cache
then. -/
def Stage.step (source : Source) (cache : Cache) (url : Url) :
    Stage → Answer × Stage × Cache
  | .asked =>
    match cache.get? url.text with
    | some d => (.gave d, .ended (.ok d), cache)
    | none => (.absent, .missed, cache)
  | .missed =>
    match source.parse url with
    | .error e => (.failed e, .ended (.error e), cache)
    | .ok root => (.fetched, .parsed root, cache)
  | .parsed root =>
    let (d, cache) := cache.insert url.text root
    (.gave d, .ended (.ok d), cache)
  | .ended result => (.idle, .ended result, cache)

/-- A load on its way. -/
structure Task where
  url : Url
  stage : Stage

/-- A cache, and the loads that share it. -/
structure Shared where
  cache : Cache
  tasks : List Task

/-- What can happen next: a key is looked up, a document is inserted, a load
begins, or one of the loads takes its next step. -/
inductive Move where
  | look (key : String)
  | insert (key : String) (root : Tree)
  | begin (url : Url)
  | advance (task : Nat) (source : Source)

namespace Shared

/-- The key that a move is about; it has none if the load is not there. -/
def key? (s : Shared) : Move → Option String
  | .look key => some key
  | .insert key _ => some key
  | .begin url => some url.text
  | .advance i _ => s.tasks[i]?.map (·.url.text)

def step (s : Shared) : Move → Answer × Shared
  | .look key =>
    match s.cache.get? key with
    | some d => (.gave d, s)
    | none => (.absent, s)
  | .insert key root =>
    let (d, cache) := s.cache.insert key root
    (.gave d, { s with cache })
  | .begin url => (.idle, { s with tasks := s.tasks ++ [⟨url, .asked⟩] })
  | .advance i source =>
    match s.tasks[i]? with
    | none => (.idle, s)
    | some t =>
      let (answer, stage, cache) := t.stage.step source s.cache t.url
      (answer, ⟨cache, s.tasks.set i { t with stage }⟩)

/-- What is told when moves are made one after the other, each answer with the
key that it is about, and how things stand then. -/
def run (s : Shared) : List Move → List (Option String × Answer) × Shared
  | [] => ([], s)
  | m :: ms =>
    let (answer, next) := s.step m
    let (answers, last) := next.run ms
    ((s.key? m, answer) :: answers, last)

/-- How things stand after some moves. -/
def after (s : Shared) (ms : List Move) : Shared := (s.run ms).2

/-- What is told in the course of some moves. -/
def answers (s : Shared) (ms : List Move) : List (Option String × Answer) :=
  (s.run ms).1

@[simp] theorem after_nil (s : Shared) : s.after [] = s := rfl

@[simp] theorem after_cons (s : Shared) (m : Move) (ms : List Move) :
    s.after (m :: ms) = (s.step m).2.after ms := rfl

@[simp] theorem answers_nil (s : Shared) : s.answers [] = [] := rfl

@[simp] theorem answers_cons (s : Shared) (m : Move) (ms : List Move) :
    s.answers (m :: ms)
      = (s.key? m, (s.step m).1) :: (s.step m).2.answers ms := rfl

theorem after_append (s : Shared) (ms ms' : List Move) :
    s.after (ms ++ ms') = (s.after ms).after ms' := by
  induction ms generalizing s with
  | nil => rfl
  | cons m ms ih => simp [ih]

end Shared

-- ============================================================= one load

/-- A load that is there takes its next step. -/
theorem Shared.step_advance {s : Shared} {i : Nat} {t : Task}
    (h : s.tasks[i]? = some t) (source : Source) :
    s.step (.advance i source)
      = ((t.stage.step source s.cache t.url).1,
          ⟨(t.stage.step source s.cache t.url).2.2,
            s.tasks.set i
              { t with stage := (t.stage.step source s.cache t.url).2.1 }⟩) := by
  unfold step
  dsimp only
  rw [h]

/-- How far the load is then. -/
theorem Shared.getElem?_step_advance {s : Shared} {i : Nat} {t : Task}
    (h : s.tasks[i]? = some t) (source : Source) :
    (s.step (.advance i source)).2.tasks[i]?
      = some { t with stage := (t.stage.step source s.cache t.url).2.1 } := by
  have hi : i < s.tasks.length := (List.getElem?_eq_some_iff.1 h).1
  rw [step_advance h]
  exact List.getElem?_set_self hi

/-- A load with no other between its steps is `load`: after three steps it has
ended, with the document or the error, and leaves the same cache. -/
theorem Shared.after_alone (s : Shared) (i : Nat) (url : Url) (source : Source)
    (h : s.tasks[i]? = some ⟨url, .asked⟩) :
    let alone := s.after
      [.advance i source, .advance i source, .advance i source]
    alone.cache = (load source s.cache url).2
      ∧ alone.tasks[i]? = some ⟨url, .ended (load source s.cache url).1⟩ := by
  have h₁ := getElem?_step_advance h source
  have h₂ := getElem?_step_advance h₁ source
  have h₃ := getElem?_step_advance h₂ source
  rw [step_advance h₂, step_advance h₁, step_advance h] at h₃
  simp only [after_cons, after_nil]
  rw [step_advance h₂, step_advance h₁, step_advance h, h₃]
  unfold load Stage.step
  cases hget : s.cache.get? url.text with
  | some d => exact ⟨rfl, rfl⟩
  | none =>
    cases hparse : source.parse url with
    | error e => exact ⟨rfl, rfl⟩
    | ok root => exact ⟨rfl, rfl⟩

-- ============================================================ one move

section Move

variable (source : Source) (cache : Cache) (url : Url)

/-- What a step of a load does to the cache: nothing, or it inserts. -/
theorem Stage.step_cache (stage : Stage) :
    (stage.step source cache url).2.2 = cache
      ∨ ∃ root, stage = .parsed root
        ∧ (stage.step source cache url).2.2 = (cache.insert url.text root).2 := by
  cases stage with
  | parsed root => exact .inr ⟨root, rfl, rfl⟩
  | asked => exact .inl (by unfold Stage.step; dsimp only; split <;> rfl)
  | missed => exact .inl (by unfold Stage.step; dsimp only; split <;> rfl)
  | ended result => exact .inl rfl

/-- A load that gives a document out gives out the one that the cache then
has. -/
theorem Stage.step_gave {stage : Stage} {d : Document}
    (h : (stage.step source cache url).1 = .gave d) :
    (stage.step source cache url).2.2.get? url.text = some d := by
  cases stage with
  | asked =>
    cases hget : cache.get? url.text <;> simp_all [Stage.step]
  | missed =>
    cases hparse : source.parse url <;> simp_all [Stage.step]
  | parsed root =>
    cases h
    exact cache.get?_insert_self url.text root
  | ended result => cases h

/-- A load that finds nothing leaves the cache, which has no document. -/
theorem Stage.step_absent {stage : Stage}
    (h : (stage.step source cache url).1 = .absent) :
    cache.get? url.text = none := by
  cases stage with
  | asked =>
    cases hget : cache.get? url.text <;> simp_all [Stage.step]
  | missed =>
    cases hparse : source.parse url <;> simp_all [Stage.step]
  | parsed root => cases h
  | ended result => cases h

end Move

/-- A document that is there is given back by an insertion, which changes
nothing. -/
theorem Cache.insert_of_get? {cache : Cache} {key : String} {d : Document}
    (h : cache.get? key = some d) (root : Tree) :
    cache.insert key root = (d, cache) := by
  unfold Cache.insert
  rw [h]

theorem Cache.get?_insert {cache : Cache} {key : String} {d : Document}
    (h : cache.get? key = some d) (other : String) (root : Tree) :
    (cache.insert other root).2.get? key = some d := by
  by_cases hkey : key = other
  · subst hkey
    rw [Cache.insert_of_get? h]
    exact h
  · rw [Cache.get?_insert_of_ne cache root hkey]
    exact h

namespace Shared

/-- What a move does to the cache: nothing, or it inserts under its key. -/
theorem step_cache (s : Shared) (m : Move) :
    (s.step m).2.cache = s.cache
      ∨ ∃ key root, s.key? m = some key
        ∧ (s.step m).2.cache = (s.cache.insert key root).2 := by
  cases m with
  | look key =>
    left
    unfold step
    dsimp only
    split <;> rfl
  | insert key root => exact .inr ⟨key, root, rfl, rfl⟩
  | begin url => exact .inl rfl
  | advance i source =>
    cases htask : s.tasks[i]? with
    | none => exact .inl (by simp [step, htask])
    | some t =>
      rcases t.stage.step_cache source s.cache t.url with h | ⟨root, -, h⟩
      · exact .inl (by simp [step_advance htask, h])
      · exact .inr ⟨t.url.text, root, by simp [key?, htask], by
          simp [step_advance htask, h]⟩

/-- What is there stays, whatever the move. -/
theorem stays_step {s : Shared} {key : String} {d : Document}
    (h : s.cache.get? key = some d) (m : Move) :
    (s.step m).2.cache.get? key = some d := by
  rcases s.step_cache m with hcache | ⟨other, root, -, hcache⟩
  · rw [hcache]
    exact h
  · rw [hcache]
    exact Cache.get?_insert h other root

/-- A move about one key leaves what another has, and has not. -/
theorem apart_step (s : Shared) (m : Move) {key : String}
    (h : s.key? m ≠ some key) :
    (s.step m).2.cache.get? key = s.cache.get? key := by
  rcases s.step_cache m with hcache | ⟨other, root, hkey, hcache⟩
  · rw [hcache]
  · rw [hcache]
    refine Cache.get?_insert_of_ne s.cache root fun heq => h ?_
    rw [hkey, heq]

/-- A document is given out for a key that the cache then has it for. -/
theorem gave_step {s : Shared} {m : Move} {d : Document}
    (h : (s.step m).1 = .gave d) :
    ∃ key, s.key? m = some key ∧ (s.step m).2.cache.get? key = some d := by
  cases m with
  | look key =>
    cases hget : s.cache.get? key with
    | none => simp [step, hget] at h
    | some d' =>
      refine ⟨key, rfl, ?_⟩
      simp only [step, hget, Answer.gave.injEq] at h ⊢
      rw [h]
  | insert key root =>
    cases h
    exact ⟨key, rfl, s.cache.get?_insert_self key root⟩
  | begin url => cases h
  | advance i source =>
    cases htask : s.tasks[i]? with
    | none => simp [step, htask] at h
    | some t =>
      simp only [step, htask] at h
      refine ⟨t.url.text, by simp [key?, htask], ?_⟩
      simp only [step, htask]
      exact Stage.step_gave source s.cache t.url h

/-- Nothing is found only for a key that the cache has nothing for. -/
theorem absent_step {s : Shared} {m : Move} (h : (s.step m).1 = .absent) :
    ∃ key, s.key? m = some key ∧ s.cache.get? key = none := by
  cases m with
  | look key =>
    cases hget : s.cache.get? key with
    | none => exact ⟨key, rfl, hget⟩
    | some d => simp [step, hget] at h
  | insert key root => cases h
  | begin url => cases h
  | advance i source =>
    cases htask : s.tasks[i]? with
    | none => simp [step, htask] at h
    | some t =>
      simp only [step, htask] at h
      exact ⟨t.url.text, by simp [key?, htask],
        Stage.step_absent source s.cache t.url h⟩

-- ============================================================== all moves

/-- What is there stays, whatever the moves. -/
theorem stays_after {s : Shared} {key : String} {d : Document}
    (h : s.cache.get? key = some d) (ms : List Move) :
    (s.after ms).cache.get? key = some d := by
  induction ms generalizing s with
  | nil => exact h
  | cons m ms ih => exact ih (stays_step h m)

/-- A document that was given out for a key is there from then on. -/
theorem stays_of_gave {s : Shared} {ms : List Move} {key : String}
    {d : Document} (h : (some key, .gave d) ∈ s.answers ms) :
    (s.after ms).cache.get? key = some d := by
  induction ms generalizing s with
  | nil => cases h
  | cons m ms ih =>
    rcases List.mem_cons.1 h with h | h
    · obtain ⟨hkey, hgave⟩ := Prod.mk.inj h
      obtain ⟨key', hkey', hthere⟩ := gave_step hgave.symm
      rw [← hkey] at hkey'
      cases hkey'
      exact stays_after hthere ms
    · exact ih h

/-- No one finds nothing where a document is. -/
theorem absent_not_mem {s : Shared} {key : String} {d : Document}
    (h : s.cache.get? key = some d) (ms : List Move) :
    (some key, .absent) ∉ s.answers ms := by
  induction ms generalizing s with
  | nil => exact List.not_mem_nil
  | cons m ms ih =>
    intro habsent
    rcases List.mem_cons.1 habsent with habsent | habsent
    · obtain ⟨hkey, hnone⟩ := Prod.mk.inj habsent
      obtain ⟨key', hkey', hmissing⟩ := absent_step hnone.symm
      rw [← hkey] at hkey'
      cases hkey'
      rw [h] at hmissing
      cases hmissing
    · exact ih (stays_step h m) habsent

/-- A load that has ended stays as it is. -/
theorem ended_step {s : Shared} {i : Nat} {url : Url}
    {result : Except Error Document}
    (h : s.tasks[i]? = some ⟨url, .ended result⟩) (m : Move) :
    (s.step m).2.tasks[i]? = some ⟨url, .ended result⟩ := by
  have hi : i < s.tasks.length := (List.getElem?_eq_some_iff.1 h).1
  cases m with
  | look key =>
    unfold step
    dsimp only
    split <;> exact h
  | insert key root => exact h
  | begin url' => simpa [step, List.getElem?_append_left hi] using h
  | advance j source =>
    by_cases hj : j = i
    · subst hj
      exact getElem?_step_advance h source
    · cases htask : s.tasks[j]? with
      | none => simpa [step, htask] using h
      | some t => simpa [step, htask, List.getElem?_set_ne hj] using h

theorem ended_after {s : Shared} {i : Nat} {url : Url}
    {result : Except Error Document}
    (h : s.tasks[i]? = some ⟨url, .ended result⟩) (ms : List Move) :
    (s.after ms).tasks[i]? = some ⟨url, .ended result⟩ := by
  induction ms generalizing s with
  | nil => exact h
  | cons m ms ih => exact ih (ended_step h m)

/-- A step of a load either leaves the cache or ends the load with a
document. -/
theorem advance_cases (s : Shared) (i : Nat) (source : Source) :
    (s.step (.advance i source)).2.cache = s.cache
      ∨ ∃ url d, (s.step (.advance i source)).2.tasks[i]?
        = some ⟨url, .ended (.ok d)⟩ := by
  cases htask : s.tasks[i]? with
  | none => exact .inl (by simp [step, htask])
  | some t =>
    rcases t.stage.step_cache source s.cache t.url with h | ⟨root, hstage, -⟩
    · exact .inl (by simp [step_advance htask, h])
    · refine .inr ⟨t.url, (s.cache.insert t.url.text root).1, ?_⟩
      rw [getElem?_step_advance htask, hstage]
      rfl

/-- A load that fails in the end has left the cache with every step. -/
theorem failed_advance {s : Shared} {i : Nat} {source : Source}
    {later : List Move} {url : Url} {e : Error}
    (h : (s.after (.advance i source :: later)).tasks[i]?
      = some ⟨url, .ended (.error e)⟩) :
    (s.step (.advance i source)).2.cache = s.cache := by
  rcases s.advance_cases i source with hsame | ⟨url', d, hended⟩
  · exact hsame
  · have hlast := ended_after hended later
    rw [after_cons, hlast] at h
    cases h

/-- A cache is written once. However the steps of loads that share a cache lie
among each other, among direct look-ups and insertions, and among changes of
what the sources give out, but without clearing: all documents given out for a
key, by loads, look-ups or insertions, are one document; from then on the cache
has it for that key, and no one finds nothing there; a load that fails leaves
the cache as it is with each of its steps; and no move about one key changes
what is there for another. -/
theorem write_once (s : Shared) (ms : List Move) :
    (∀ key d d', (some key, .gave d) ∈ s.answers ms →
        (some key, .gave d') ∈ s.answers ms → d = d')
      ∧ (∀ before later, ms = before ++ later → ∀ key d,
        (some key, .gave d) ∈ s.answers before →
          (s.after ms).cache.get? key = some d
            ∧ (some key, .absent) ∉ (s.after before).answers later)
      ∧ (∀ before i source later, ms = before ++ .advance i source :: later →
        ∀ url e, (s.after ms).tasks[i]? = some ⟨url, .ended (.error e)⟩ →
          ((s.after before).step (.advance i source)).2.cache
            = (s.after before).cache)
      ∧ ∀ before m later, ms = before ++ m :: later → ∀ key,
        (s.after before).key? m ≠ some key →
          ((s.after before).step m).2.cache.get? key
            = (s.after before).cache.get? key := by
  refine ⟨fun key d d' h h' => ?_, ?_, ?_, ?_⟩
  · have hthere := stays_of_gave h
    rw [stays_of_gave h'] at hthere
    exact (Option.some.inj hthere).symm
  · rintro before later rfl key d hgave
    have hthere := stays_of_gave hgave
    rw [after_append]
    exact ⟨stays_after hthere later, absent_not_mem hthere later⟩
  · rintro before i source later rfl url e hfailed
    rw [after_append] at hfailed
    exact failed_advance hfailed
  · rintro before m later rfl key hkey
    exact apart_step _ m hkey

-- Two loads of one address that both find nothing and parse different texts;
-- the one that inserts last returns the document of the other.
example :
    let url : Url := ⟨"m", none, .flat "a", none, none⟩
    let text (s : String) : Source := ⟨fun _ => .ok s⟩
    let answers := Shared.answers ⟨.empty, []⟩
      [.begin url, .begin url,
        .advance 0 (text "<a>1</a>"), .advance 1 (text "<a>1</a>"),
        .advance 0 (text "<a>1</a>"), .advance 1 (text "<a>2</a>"),
        .advance 1 (text "<a>3</a>"), .advance 0 (text "<a>3</a>")]
    answers.filterMap (fun
      | (_, .gave d) => some d.root.textContent
      | _ => none) = ["2", "2"] := by
  decide +kernel

end Shared

end Stencil.Loading
