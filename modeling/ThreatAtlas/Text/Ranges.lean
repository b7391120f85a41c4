/-!
# Tables of code point ranges

A set of code points is kept as the increasing list of places where membership changes: the first
bound opens a range, the second closes it, and so on.
-/

namespace ThreatAtlas.Text

/-- How many of the increasing numbers `key 0, …, key (size - 1)` are at most `x`, by halving. -/
def rank (size : Nat) (key : Nat → Nat) (x : Nat) : Nat :=
  search size 0 size
where
  search : Nat → Nat → Nat → Nat
    | 0, lo, _ => lo
    | fuel + 1, lo, hi =>
      if lo < hi then
        let mid := (lo + hi) / 2
        if key mid ≤ x then search fuel (mid + 1) hi else search fuel lo mid
      else lo

/-- Membership in the set whose membership changes at `bounds`. -/
def inRanges (bounds : Array Nat) (c : Char) : Bool :=
  rank bounds.size (bounds.getD · 0) c.toNat % 2 == 1

end ThreatAtlas.Text
