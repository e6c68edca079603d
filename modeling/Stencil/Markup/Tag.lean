/-
The inside of a start tag: its name, then its attributes. Positions are byte
offsets counted from behind the `<`. The faults of a tag are met from left to
right, and the value of one attribute is resolved before the next attribute
is looked at.
-/
import Stencil.Markup.Entity
import Stencil.Text.Blank

namespace Stencil.Markup

open Text (isSpace width)

/-- The name at the beginning of a tag: all up to the first space. -/
def tagName (s : List Char) : List Char := s.takeWhile fun c => !isSpace c

/-- The characters of a key behind its first: all up to a space or `=`. -/
def keyTail (s : List Char) : List Char :=
  s.takeWhile fun c => !isSpace c && c != '='

/-- Keys met so far and where they began. -/
abbrev Keys := List (List Char × Nat)

/-- Reads attributes from byte offset `pos` of a tag that is `size` bytes
long. -/
def attributesFrom (size : Nat) (seen : Keys) (pos : Nat) (s : List Char) :
    Except Fault (List (String × String)) :=
  match _hs : s.dropWhile isSpace with
  | [] => .ok []
  | c :: s₁ =>
    let start := pos + width (s.takeWhile isSpace)
    let key := c :: keyTail s₁
    match _hk : (s₁.drop (keyTail s₁).length).dropWhile isSpace with
    | [] => .error (.keyWithoutEquals size)
    | e :: s₂ =>
      if e != '=' then .error (.keyWithoutEquals (size - width (e :: s₂)))
      else
        -- a key that was met is refused before its value is looked at
        match seen.lookup key with
        | some earlier => .error (.duplicate start earlier)
        | none =>
          match _hv : s₂.dropWhile isSpace with
          | [] => .error (.valueMissing size)
          | q :: s₃ =>
            if q != '"' && q != '\'' then
              .error (.valueUnquoted (size - width (q :: s₃)))
            else
              match _hr : s₃.dropWhile (· != q) with
              | [] => .error (.valueNotClosed size q)
              | _ :: rest => do
                let value ← unescape (s₃.takeWhile (· != q))
                let more ← attributesFrom size (seen ++ [(key, start)])
                  (size - width rest) rest
                .ok ((String.ofList key, String.ofList value) :: more)
termination_by s.length
decreasing_by
  have h₁ := (List.dropWhile_suffix isSpace (l := s)).length_le
  have h₂ := (List.dropWhile_suffix isSpace
    (l := s₁.drop (keyTail s₁).length)).length_le
  have h₃ := (List.dropWhile_suffix isSpace (l := s₂)).length_le
  have h₄ := (List.dropWhile_suffix (· != q) (l := s₃)).length_le
  rw [_hs] at h₁
  rw [_hk] at h₂
  rw [_hv] at h₃
  rw [_hr] at h₄
  simp only [List.length_cons, List.length_drop] at h₁ h₂ h₃ h₄
  omega

/-- The attributes of a tag as written, references resolved. -/
def readAttributes (tag : List Char) : Except Fault (List (String × String)) :=
  let name := tagName tag
  attributesFrom (width tag) [] (width name) (tag.drop name.length)

end Stencil.Markup
