namespace TableLog.Unicode

abbrev Runs := List (Nat × Nat)

def codePoint (digits : String) : Nat :=
  digits.toList.foldl (fun n c ↦ 16 * n + (if c.isDigit then c.toNat - 0x30 else c.toNat - 0x57)) 0

namespace Runs

/-- A row writes a run as its first and its last code point, in hexadecimal, or as its only one. -/
def read (rows : List String) : Runs :=
  rows.flatMap fun row ↦ (row.splitOn " ").map fun word ↦
    let ends := (word.splitOn "-").map codePoint
    (ends.headD 0, ends.getLastD 0)

def contains (rs : Runs) (c : Char) : Bool := rs.any fun r ↦ r.1 ≤ c.toNat && c.toNat ≤ r.2

end Runs

end TableLog.Unicode
