/-!
# Similarity of texts

Two texts are compared by their longest common blocks: the longest one is found, then the longest
ones to its left and to its right, and so on. The ratio is twice the number of characters in blocks
over the length of both texts. In a second text of 200 characters or more, characters that make up
more than one in a hundred do not start a block, but may extend one.
-/

namespace ThreatAtlas.Similarity

structure Block where
  left : Nat
  right : Nat
  size : Nat
deriving Repr, DecidableEq

/-- Whether a character is too frequent in `b` to start a block. -/
def isPopular (b : List Char) (c : Char) : Bool :=
  200 ≤ b.length && b.length / 100 + 1 < b.count c

def popular (b : List Char) : List Char :=
  b.eraseDups.filter (isPopular b)

/-- The lengths of the common runs that end at a character `c` of the left text and at each
character of the right one, from the lengths for the character before. -/
def nextRow (starts : Char → Bool) (c : Char) : Nat → List Char → List Nat → List Nat
  | diagonal, d :: ds, n :: ns =>
    (if c == d && starts d then diagonal + 1 else 0) :: nextRow starts c n ds ns
  | _, _, _ => []

/-- The first longest run in a row that is longer than the best so far. -/
def improve (i : Nat) (row : List Nat) (best : Block) : Block :=
  (row.zipIdx).foldl (fun best (n, j) =>
    if best.size < n then ⟨i + 1 - n, j + 1 - n, n⟩ else best) best

/-- The longest common run of characters that may start a block; the first, of several. -/
def longestRun (starts : Char → Bool) (a b : List Char) : Block :=
  (a.zipIdx.foldl (fun (row, best) (c, i) =>
    let row := nextRow starts c 0 b row
    (row, improve i row best)) (List.replicate b.length 0, ⟨0, 0, 0⟩)).2

def commonStart : List Char → List Char → Nat
  | c :: cs, d :: ds => if c == d then commonStart cs ds + 1 else 0
  | _, _ => 0

def extend (a b : List Char) (block : Block) : Block :=
  let back := commonStart (a.take block.left).reverse (b.take block.right).reverse
  let on := commonStart (a.drop (block.left + block.size)) (b.drop (block.right + block.size))
  ⟨block.left - back, block.right - back, back + block.size + on⟩

def matchedWithin (starts : Char → Bool) : Nat → List Char → List Char → Nat
  | 0, _, _ => 0
  | fuel + 1, a, b =>
    let block := extend a b (longestRun starts a b)
    if block.size == 0 then 0
    else
      matchedWithin starts fuel (a.take block.left) (b.take block.right) + block.size +
        matchedWithin starts fuel (a.drop (block.left + block.size))
          (b.drop (block.right + block.size))

def matched (a b : List Char) : Nat :=
  let frequent := popular b
  matchedWithin (fun c => !frequent.contains c) (a.length + 1) a b

structure Ratio where
  num : Nat
  den : Nat
deriving Repr, DecidableEq

namespace Ratio

def one : Ratio := ⟨1, 1⟩

def zero : Ratio := ⟨0, 1⟩

def lt (r s : Ratio) : Bool :=
  r.num * s.den < s.num * r.den

def toFloat (r : Ratio) : Float :=
  r.num.toFloat / r.den.toFloat

end Ratio

def ratio (a b : String) : Ratio :=
  let a := a.toList
  let b := b.toList
  let total := a.length + b.length
  if total == 0 then .one else ⟨2 * matched a b, total⟩

end ThreatAtlas.Similarity
