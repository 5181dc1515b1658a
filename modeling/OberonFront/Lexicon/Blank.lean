import OberonFront.Lexicon.Basic
import OberonFront.Text.Unread

/-!
# Between the tokens

Blanks and comments.  A comment that is never closed reaches to the end of the
text; an opening bracket of which only the first character is there opens
nothing.
-/

namespace OberonFront

namespace Comment

/-- Whether the two characters, inside a comment, open a further one.  The first character of a
closing bracket never does. -/
def opensInside (k : Comment) (a b : Char) : Bool :=
  k.nested && a != k.closer.1 && (a, b) == k.opener

/-- What is left behind the closing bracket of a comment, of which `level` others are open
around it.  There is none if the comment is never closed. -/
def skip (k : Comment) (level : Nat) (position : Position) : List Char → Option Unread
  | a :: b :: rest =>
      if (a, b) = k.closer then
        match level with
        | 0 => some ⟨(position.next a).next b, rest⟩
        | level + 1 => k.skip level ((position.next a).next b) rest
      else if k.opensInside a b then
        k.skip (level + 1) ((position.next a).next b) rest
      else
        k.skip level (position.next a) (b :: rest)
  | _ => none

theorem length_of_skip
    {k : Comment} {level : Nat} {position : Position} {text : List Char} {u : Unread}
    (h : k.skip level position text = some u) : u.rest.length < text.length := by
  fun_induction skip k level position text with
  | case1 =>
      cases h
      simp only [List.length_cons]
      omega
  | case2 _ _ _ _ _ _ ih =>
      have lt := ih h
      simp only [List.length_cons]
      omega
  | case3 _ _ _ _ _ _ _ ih =>
      have lt := ih h
      simp only [List.length_cons]
      omega
  | case4 _ _ _ _ _ _ _ ih =>
      have lt := ih h
      simp only [List.length_cons] at lt ⊢
      omega
  | case5 => contradiction

end Comment

namespace Lexicon

def skipBlanks (x : Lexicon) (u : Unread) : Unread :=
  match _text : u.rest with
  | [] => u
  | a :: rest =>
      if x.isBlank a.toNat then x.skipBlanks ⟨u.position.next a, rest⟩
      else
        match x.comment? a.toNat, rest with
        | some k, b :: rest =>
            if b = k.opener.2 then
              match _skipped : k.skip 0 ((u.position.next a).next b) rest with
              | some v => x.skipBlanks v
              | none => u.toEnd
            else u
        | _, _ => u
termination_by u.rest.length
decreasing_by
  · simp only [_text, List.length_cons]
    omega
  · have lt := Comment.length_of_skip _skipped
    simp only [_text, List.length_cons]
    omega

theorem length_skipBlanks_le (x : Lexicon) (u : Unread) :
    (x.skipBlanks u).rest.length ≤ u.rest.length := by
  fun_induction skipBlanks x u with
  | case1 u h => simp [h]
  | case2 u a rest h _ ih =>
      simp only [h, List.length_cons]
      exact Nat.le_succ_of_le ih
  | case3 u a _ k rest _ v text skipped _ ih =>
      have := Comment.length_of_skip skipped
      simp only [text, List.length_cons]
      omega
  | case4 => simp
  | case5 => exact Nat.le_refl _
  | case6 => exact Nat.le_refl _

end Lexicon

end OberonFront
