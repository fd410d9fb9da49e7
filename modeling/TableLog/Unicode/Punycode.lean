namespace TableLog.Punycode

def digit (d : Nat) : Char := if d < 26 then .ofNat (0x61 + d) else .ofNat (0x30 + (d - 26))

def value? (c : Char) : Option Nat :=
  let n := c.toNat
  if 0x61 ≤ n && n ≤ 0x7A then some (n - 0x61)
  else if 0x41 ≤ n && n ≤ 0x5A then some (n - 0x41)
  else if 0x30 ≤ n && n ≤ 0x39 then some (n - 0x30 + 26)
  else none

/-- A digit below the threshold of its place ends a number. -/
def threshold (bias place : Nat) : Nat := min 26 (max 1 (36 * place - bias))

theorem threshold_pos (bias place : Nat) : 0 < threshold bias place := by
  simp only [threshold]
  omega

def settle (delta : Nat) : Nat :=
  if 455 < delta then 36 + settle (delta / 35) else 36 * delta / (delta + 38)

def adapt (delta count : Nat) (first : Bool) : Nat :=
  let d := if first then delta / 700 else delta / 2
  settle (d + d / count)

def firstBias : Nat := 72

def firstCode : Nat := 0x80

def writeFrom (bias place n : Nat) : List Char :=
  let t := threshold bias place
  if n < t then [digit n]
  else digit (t + (n - t) % (36 - t)) :: writeFrom bias (place + 1) ((n - t) / (36 - t))
termination_by n
decreasing_by
  have := threshold_pos bias place
  exact Nat.lt_of_le_of_lt (Nat.div_le_self _ _) (by omega)

/-- A distance as digits. -/
def write (bias n : Nat) : List Char := writeFrom bias 1 n

structure Writing where
  text : List Char := []
  delta : Nat := 0
  bias : Nat := firstBias
  /-- How many characters are written. -/
  count : Nat

def Writing.pass (first : Nat) (code : Nat) (w : Writing) (c : Char) : Writing :=
  if c.toNat < code then { w with delta := w.delta + 1 }
  else if c.toNat = code then
    { text := w.text ++ write w.bias w.delta, delta := 0,
      bias := adapt w.delta (w.count + 1) (w.count = first)
      count := w.count + 1 }
  else w

def writeCodes (cs : List Char) (first : Nat) : Nat → List Nat → Writing → Writing
  | _, [], w => w
  | next, code :: codes, w =>
    let w := { w with delta := w.delta + (code - next) * (w.count + 1) }
    let w := cs.foldl (Writing.pass first code) w
    writeCodes cs first (code + 1) codes { w with delta := w.delta + 1 }

def isBasic (c : Char) : Bool := c.toNat < firstCode

def encode (cs : List Char) : List Char :=
  let basic := cs.filter isBasic
  let codes := (((cs.filter (!isBasic ·)).map Char.toNat).mergeSort (· ≤ ·)).eraseDups
  basic ++ (if basic = [] then [] else ['-']) ++
    (writeCodes cs basic.length firstCode codes { count := basic.length }).text

structure Reading where
  text : List Char
  code : Nat := firstCode
  bias : Nat := firstBias
  /-- Where the last character was inserted. -/
  start : Nat := 0
  position : Nat := 0
  weight : Nat := 1
  place : Nat := 1

def Reading.insert? (r : Reading) (position : Nat) : Option Reading :=
  let count := r.text.length + 1
  let code := r.code + position / count
  if code.isValidChar then
    let i := position % count
    some
      { text := r.text.take i ++ Char.ofNat code :: r.text.drop i, code, start := i + 1,
        position := i + 1
        bias := adapt (position - r.start) count (r.start = 0) }
  else none

def Reading.push? (r : Reading) (c : Char) : Option Reading := do
  let d ← value? c
  let position := r.position + d * r.weight
  let t := threshold r.bias r.place
  if d < t then r.insert? position
  else some { r with position, weight := r.weight * (36 - t), place := r.place + 1 }

def decode? (cs : List Char) : Option (List Char) := do
  let digits := (cs.reverse.takeWhile (· ≠ '-')).reverse
  let basic := (cs.take (cs.length - digits.length)).dropLast
  if basic.all isBasic then
    let r ← digits.foldlM Reading.push? { text := basic }
    if r.place = 1 then some r.text else none
  else none

end TableLog.Punycode
