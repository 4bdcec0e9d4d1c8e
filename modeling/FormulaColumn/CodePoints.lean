/-!
# Sets of code points

Two rules of the library ask whether a character has a Unicode property:
which characters separate tokens, and which ones a quoted text may show as
they are. A property is stored as data, the list of its ranges, and asked
through one membership test, so that a new property is a new table and
nothing else.
-/

namespace FormulaColumn

/-- **A set of code points**, stored as a list of ranges. -/
structure CodePoints where
  /-- The first and the last code point of each range, both in the set. -/
  ranges : List (Nat × Nat)

namespace CodePoints

/-- **Membership**: some range spans the character. -/
def contains (set : CodePoints) (c : Char) : Bool :=
  set.ranges.any fun range => range.1 ≤ c.toNat && c.toNat ≤ range.2

theorem contains_iff {set : CodePoints} {c : Char} :
    set.contains c = true
      ↔ ∃ range ∈ set.ranges, range.1 ≤ c.toNat ∧ c.toNat ≤ range.2 := by
  simp [contains]

end CodePoints

end FormulaColumn
