/-
How a load ends. A document that is in the cache is given out, and the cache
stays as it is; else the document is read from the source and put into the
cache, or it cannot be had, and then nothing is put there.
-/
import Stencil.Loading.Loader
import Stencil.Proofs.Related

namespace Stencil.Loading

open Markup (Document Tree)

variable {source : Source} {cache : Cache} {url : Url} {root : Tree}

theorem load_of_some {d : Document} (h : cache.get? url.text = some d) :
    load source cache url = (.ok d, cache) := by
  rw [load, h]

theorem load_of_error {e : Error} (h : cache.get? url.text = none)
    (hparse : source.parse url = .error e) :
    load source cache url = (.error e, cache) := by
  rw [load, h, hparse]

theorem load_of_ok (h : cache.get? url.text = none)
    (hparse : source.parse url = .ok root) :
    load source cache url
      = (.ok (cache.document url.text root),
        { cache with entries := (url.text, root) :: cache.entries }) := by
  rw [load, h, hparse]
  dsimp only
  rw [Cache.insert, h]

theorem Cache.mem_of_get? {key : String} {d : Document}
    (h : cache.get? key = some d) : (key, d.root) ∈ cache.entries := by
  obtain ⟨root, hroot, rfl⟩ := Option.map_eq_some_iff.1 h
  exact mem_of_lookup hroot

/-- What a source gives is parsed from a text. -/
theorem exists_parse (h : source.parse url = .ok root) :
    ∃ text, Tree.parse text = .ok root := by
  unfold Source.parse at h
  obtain ⟨text, -, h⟩ := bind_eq_ok h
  exact ⟨text.toList, mapError_eq_ok h⟩

end Stencil.Loading
