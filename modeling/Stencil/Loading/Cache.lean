/-
Documents already parsed, by address. An entry is written once: a second
insertion under its key gives the first document back. Clearing begins
another epoch, and a document of a later epoch is another document even if
it has the same address.
-/
import Stencil.Markup.Node

namespace Stencil.Loading

open Markup (Document)

structure Cache where
  epoch : Nat
  entries : List (String × Markup.Tree)

namespace Cache

def empty : Cache := ⟨0, []⟩

/-- The document of an entry. -/
def document (c : Cache) (key : String) (root : Markup.Tree) : Document :=
  ⟨.loaded c.epoch key, root⟩

def get? (c : Cache) (key : String) : Option Document :=
  (c.entries.lookup key).map (c.document key)

/-- Keeps a document unless the key has one; gives the one it then has. -/
def insert (c : Cache) (key : String) (root : Markup.Tree) :
    Document × Cache :=
  match c.get? key with
  | some d => (d, c)
  | none =>
    (c.document key root, { c with entries := (key, root) :: c.entries })

def clear (c : Cache) : Cache := ⟨c.epoch + 1, []⟩

def size (c : Cache) : Nat := c.entries.length

-- ================================================================= lookup

theorem get?_insert_self (c : Cache) (key : String) (root : Markup.Tree) :
    (c.insert key root).2.get? key = some (c.insert key root).1 := by
  simp only [insert]
  split
  · assumption
  · simp [get?, document]

theorem get?_insert_of_ne (c : Cache) {key other : String}
    (root : Markup.Tree) (h : other ≠ key) :
    (c.insert key root).2.get? other = c.get? other := by
  simp only [insert]
  split
  · rfl
  · have : (other == key) = false := by simpa using h
    simp only [get?, List.lookup_cons, this]
    rfl

end Cache

end Stencil.Loading
