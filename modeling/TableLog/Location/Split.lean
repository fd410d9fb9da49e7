namespace TableLog.Split

def every (c : Char) (cs : List Char) : List (List Char) :=
  cs.foldr (fun x acc ↦
    if x = c then [] :: acc
    else
      match acc with
      | [] => [[x]]
      | h :: t => (x :: h) :: t) [[]]

/-- The part before the last occurrence, if there is one, and the part after. -/
def last (c : Char) (cs : List Char) : Option (List Char) × List Char :=
  let after := (cs.reverse.takeWhile (· ≠ c)).reverse
  if cs.contains c then (some (cs.take (cs.length - after.length - 1)), after) else (none, cs)

def after? (c : Char) (cs : List Char) : Option (List Char) :=
  let front := cs.takeWhile (· ≠ c)
  if front.length < cs.length then some (cs.drop (front.length + 1)) else none

end TableLog.Split
