/-
What a run loads.

Documents are only ever added to the cache, and each is parsed before it is
added: `Loads`, a preorder on machines that every step of the interpreter stays
within. So whatever a run has loaded on its way is in the cache that it leaves.
-/
import Stencil.Proofs.Loading.Outcome
import Stencil.Proofs.Template.Congruence
import Stencil.Proofs.Template.Outcome

namespace Stencil.Template

open Markup (Document Node Tree)

variable {σ α β : Type} {s : Settings σ}

-- ============================================================= the relation

/-- Documents are added to the cache, all of them parsed. -/
structure Loads (before after : Machine σ) : Prop where
  kept : before.cache.entries ⊆ after.cache.entries
  parsed : ∀ entry ∈ after.cache.entries, entry ∈ before.cache.entries
    ∨ ∃ source, Tree.parse source = .ok entry.2

theorem Loads.refl (m : Machine σ) : Loads m m :=
  ⟨List.Subset.refl _, fun _ h => .inl h⟩

theorem Loads.trans {a b c : Machine σ} (hab : Loads a b) (hbc : Loads b c) :
    Loads a c := by
  refine ⟨List.Subset.trans hab.kept hbc.kept, fun entry h => ?_⟩
  rcases hbc.parsed entry h with h | h
  · exact hab.parsed entry h
  · exact .inr h

/-- A run that leaves the cache alone. -/
theorem loads_nothing {x : Run σ α} (h : ∀ m, (after x m).cache = m.cache) :
    Within Loads x := by
  intro m
  refine ⟨?_, fun entry he => .inl ?_⟩
  · rw [h]
    exact List.Subset.refl _
  · rw [h] at he
    exact he

-- =================================================================== steps

/-- A document that is loaded is in the cache then, and if it was not before
it is parsed. -/
theorem load_cases (source : Loading.Source) (cache : Loading.Cache)
    (url : Url) :
    (∀ d, (Loading.load source cache url).1 = .ok d →
        ∃ entry ∈ (Loading.load source cache url).2.entries, entry.2 = d.root)
      ∧ ((Loading.load source cache url).2 = cache
        ∨ ∃ entry, (Loading.load source cache url).2.entries
            = entry :: cache.entries
          ∧ ∃ text, Tree.parse text = .ok entry.2) := by
  cases hget : cache.get? url.text with
  -- what was loaded before is taken from the cache, which stays as it is
  | some d =>
    rw [Loading.load_of_some hget]
    refine ⟨fun d' hd' => ?_, .inl rfl⟩
    cases hd'
    exact ⟨_, Loading.Cache.mem_of_get? hget, rfl⟩
  | none =>
    cases hparse : source.parse url with
    | error e =>
      rw [Loading.load_of_error hget hparse]
      exact ⟨nofun, .inl rfl⟩
    | ok root =>
      rw [Loading.load_of_ok hget hparse]
      refine ⟨fun d hd => ?_, .inr ⟨_, rfl, Loading.exists_parse hparse⟩⟩
      cases hd
      exact ⟨_, List.mem_cons_self, rfl⟩

/-- Every document of the cache is parsed. -/
def AllParsed (cache : Loading.Cache) : Prop :=
  ∀ entry ∈ cache.entries, ∃ source, Tree.parse source = .ok entry.2

/-- What is loaded is parsed, and so are all documents then. -/
theorem AllParsed.load {cache : Loading.Cache} (h : AllParsed cache)
    (source : Loading.Source) (url : Url) :
    (∀ d, (Loading.load source cache url).1 = .ok d →
        ∃ text, Tree.parse text = .ok d.root)
      ∧ AllParsed (Loading.load source cache url).2 := by
  obtain ⟨hfound, hcache⟩ := load_cases source cache url
  have hall : AllParsed (Loading.load source cache url).2 := by
    rcases hcache with hcache | ⟨entry, hcache, hparsed⟩
    · rw [hcache]
      exact h
    · unfold AllParsed
      rw [hcache]
      exact List.forall_mem_cons.2 ⟨hparsed, h⟩
  refine ⟨fun d hd => ?_, hall⟩
  obtain ⟨entry, hentry, hroot⟩ := hfound d hd
  exact hroot ▸ hall entry hentry

theorem loads_load (s : Settings σ) (url : Url) : Within Loads (load s url) := by
  intro m
  show Loads m { m with cache := (Loading.load s.source m.cache url).2 }
  rcases (load_cases s.source m.cache url).2 with h | ⟨entry, h, hparsed⟩
  · rw [h]
    exact .refl m
  · refine ⟨fun e he => ?_, fun e he => ?_⟩
    · show e ∈ (Loading.load s.source m.cache url).2.entries
      rw [h]
      exact List.mem_cons_of_mem _ he
    · have he : e ∈ (Loading.load s.source m.cache url).2.entries := he
      rw [h] at he
      rcases List.mem_cons.1 he with rfl | he
      · exact .inr hparsed
      · exact .inl he

theorem loads_send (s : Settings σ) (e : Output.Event) :
    Within Loads (send s e) := by
  refine loads_nothing fun m => ?_
  unfold after send
  rcases s.sink.send m.output e with ⟨o, _ | error⟩ <;> rfl

theorem loads_bind {x : Run σ α} {f : α → Run σ β} (hx : Within Loads x)
    (hf : ∀ a, Within Loads (f a)) : Within Loads (x >>= f) :=
  within_bind .trans hx hf

theorem loads_sendAll (s : Settings σ) (es : List Output.Event) :
    Within Loads (sendAll s es) := by
  induction es with
  | nil => exact loads_nothing fun _ => rfl
  | cons e es ih => exact loads_bind (loads_send s e) fun _ => ih

theorem loads_onScope (n : Node) (f : Scopes → Except ScopeError Scopes) :
    Within Loads (onScope n f : Run σ Unit) := by
  refine loads_nothing fun m => ?_
  unfold after onScope
  cases f m.scopes <;> rfl

/-- A change around a run that leaves the cache alone. -/
theorem loads_between {enter leave : Machine σ → Machine σ} {x : Run σ α}
    (henter : ∀ m, (enter m).cache = m.cache)
    (hleave : ∀ m, (leave m).cache = m.cache) (hx : Within Loads x) :
    Within Loads (between enter leave x) := by
  intro m
  have h := hx (enter m)
  rw [after_between]
  refine ⟨?_, fun entry he => ?_⟩
  · rw [hleave, ← henter]
    exact h.kept
  · rw [hleave] at he
    rw [← henter]
    exact h.parsed entry he

-- ================================================================== whole

/-- Loading, as a relation that looks at the left side only. -/
abbrev KeepsLoaded : Run σ Unit → Run σ Unit → Prop :=
  Alone fun x => Within Loads x

theorem loads_sequential : Sequential (@KeepsLoaded σ) where
  skip := loads_nothing fun _ => rfl
  seq hx hy := loads_bind hx fun _ => hy
  binding n _ _ := loads_onScope n _

/-- The interpreter only ever loads: every step does. -/
theorem loads_congruence (s : Settings σ) : Congruence s s KeepsLoaded where
  toSequential := loads_sequential
  uri := rfl
  fault _ := loads_nothing fun _ => rfl
  reading hr hf := within_read .refl fun env a ha =>
    let ⟨b, hab⟩ := (hr env).exists_of_ok ha
    hf a b hab
  state hf := within_state fun m => hf m m rfl
  loading url hf := loads_bind (loads_load s url) hf
  definition n _ := loads_onScope n _
  characters _ := loads_send s _
  cdata _ := loads_sendAll s _
  doctype _ _ _ := loads_sendAll s _
  enclosed _ _ hx :=
    loads_bind (loads_send s _) fun _ =>
      loads_bind hx fun _ => loads_send s _
  inScope _ hx := loads_between (fun _ => rfl) (fun _ => rfl) hx
  nested hx := loads_between (fun _ => rfl) (fun _ => rfl) hx
  rebased _ _ hx := loads_between (fun _ => rfl) (fun _ => rfl)
    (loads_bind (loads_nothing fun _ => rfl) fun _ => hx)
  floating n name r hx := loads_sequential.runFloat
    (loads_nothing fun _ => rfl) rfl n name r hx

end Stencil.Template
