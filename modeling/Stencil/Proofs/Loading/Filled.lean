/-
Caches that one source has filled.

Every document in such a cache was put there by an earlier load from the source
(`Cache.Filled`). So it is what the source gives at some address of the text
that it is kept under, and there is one address of a text. Hence a load gives
what the source gives, whatever the cache holds (`root_load`), and leaves a
cache that the source has filled (`Filled.load`); a load that fails leaves it
as it is.
-/
import Stencil.Proofs.Loading.Outcome
import Stencil.Proofs.Url.Parsed

namespace Stencil.Loading

open Markup (Document Tree)

variable {source : Source} {cache : Cache} {url : Url} {key : String}
  {root : Tree}

-- ================================================================== filled

/-- A load from the source, by some cache at some time, puts the document under
the key. -/
def PutBy (source : Source) (key : String) (root : Tree) : Prop :=
  ∃ (cache : Cache) (url : Url), url.Sound
    ∧ (load source cache url).2.entries = (key, root) :: cache.entries

/-- Every document in the cache was put there by a load from the source. -/
def Cache.Filled (source : Source) (cache : Cache) : Prop :=
  ∀ entry ∈ cache.entries, PutBy source entry.1 entry.2

/-- What a load puts into a cache is what the source gives at an address. -/
theorem putBy_iff : PutBy source key root
    ↔ ∃ url : Url, url.Sound ∧ url.text = key
      ∧ source.parse url = .ok root := by
  constructor
  · rintro ⟨cache, url, hurl, hput⟩
    refine ⟨url, hurl, ?_⟩
    have hshorter : cache.entries ≠ (key, root) :: cache.entries := by simp
    cases hget : cache.get? url.text with
    | some d =>
      rw [load_of_some hget] at hput
      exact absurd hput hshorter
    | none =>
      cases hparse : source.parse url with
      | error e =>
        rw [load_of_error hget hparse] at hput
        exact absurd hput hshorter
      | ok found =>
        rw [load_of_ok hget hparse] at hput
        cases hput
        exact ⟨rfl, rfl⟩
  · rintro ⟨url, hurl, rfl, hparse⟩
    exact ⟨.empty, url, hurl, by rw [load_of_ok rfl hparse]⟩

namespace Cache

theorem filled_of_nil (h : cache.entries = []) : cache.Filled source := by
  intro entry hentry
  rw [h] at hentry
  exact absurd hentry nofun

theorem filled_empty (source : Source) : Cache.empty.Filled source :=
  filled_of_nil rfl

theorem filled_clear (source : Source) (cache : Cache) :
    cache.clear.Filled source :=
  filled_of_nil rfl

/-- Under the text of an address is what the source gives there. -/
theorem Filled.parse (h : cache.Filled source) (hurl : url.Sound)
    {d : Document} (hget : cache.get? url.text = some d) :
    source.parse url = .ok d.root := by
  obtain ⟨other, hother, htext, hparse⟩ :=
    putBy_iff.1 (h _ (mem_of_get? hget))
  rw [← Url.text_inj hother.proper hurl.proper htext]
  exact hparse

theorem Filled.load (h : cache.Filled source) (hurl : url.Sound) :
    (load source cache url).2.Filled source := by
  cases hget : cache.get? url.text with
  | some d => rwa [load_of_some hget]
  | none =>
    cases hparse : source.parse url with
    | error e => rwa [load_of_error hget hparse]
    | ok root =>
      rw [load_of_ok hget hparse]
      exact List.forall_mem_cons.2
        ⟨putBy_iff.2 ⟨url, hurl, rfl, hparse⟩, h⟩

end Cache

/-- A load gives what the source gives, whatever it finds in the cache. -/
theorem root_load (h : cache.Filled source) (hurl : url.Sound) :
    (load source cache url).1.map Document.root = source.parse url := by
  cases hget : cache.get? url.text with
  | some d =>
    rw [load_of_some hget, h.parse hurl hget]
    rfl
  | none =>
    cases hparse : source.parse url with
    | error e =>
      rw [load_of_error hget hparse]
      rfl
    | ok root =>
      rw [load_of_ok hget hparse]
      rfl

end Stencil.Loading
