import TableLog.Error
import TableLog.Location

namespace TableLog

inductive Node
  | directory
  | file (content : Bytes)
  deriving DecidableEq, Repr

/-- The names from the root down to a place, none of them empty, a dot or two dots. -/
abbrev Place := List Bytes

structure FileSystem where
  entries : List (Place × Node)
  distinct : (entries.map (·.1)).Nodup
  deriving DecidableEq, Repr

namespace FileSystem

def empty : FileSystem := ⟨[], .nil⟩

/-- What is at a place. The root is always a directory. -/
def get? (fs : FileSystem) (p : Place) : Option Node :=
  if p = [] then some .directory else fs.entries.lookup p

def without (p : Place) (es : List (Place × Node)) : List (Place × Node) :=
  es.filter fun e ↦ e.1 ≠ p

theorem not_mem_without (p : Place) (es : List (Place × Node)) : p ∉ (without p es).map (·.1) := by
  simp [without]

theorem without_distinct (p : Place) {es : List (Place × Node)} (h : (es.map (·.1)).Nodup) :
    ((without p es).map (·.1)).Nodup :=
  h.sublist (List.filter_sublist.map _)

def set (fs : FileSystem) (p : Place) (n : Node) : FileSystem where
  entries := (p, n) :: without p fs.entries
  distinct := List.nodup_cons.2 ⟨not_mem_without p fs.entries, without_distinct p fs.distinct⟩

def unset (fs : FileSystem) (p : Place) : FileSystem :=
  ⟨without p fs.entries, without_distinct p fs.distinct⟩

theorem lookup_without (p q : Place) (es : List (Place × Node)) :
    (without p es).lookup q = if q = p then none else es.lookup q := by
  induction es with
  | nil => simp [without]
  | cons e r ih =>
    rw [without] at ih ⊢
    by_cases he : e.1 = p
    · rw [List.filter_cons_of_neg (by simpa using he), ih, List.lookup_cons, he]
      by_cases hq : q = p
      · simp [hq]
      · have hb : (q == p) = false := by simpa using hq
        rw [hb]
    · rw [List.filter_cons_of_pos (by simpa using he), List.lookup_cons, ih, List.lookup_cons]
      by_cases hq : q = e.1
      · simp [hq, he]
      · have hb : (q == e.1) = false := by simpa using hq
        rw [hb]

theorem get?_set (fs : FileSystem) (p : Place) (n : Node) (q : Place) :
    (fs.set p n).get? q =
      if q = [] then some .directory else if q = p then some n else fs.get? q := by
  by_cases hq : q = []
  · simp [get?, hq]
  · rw [get?, get?, if_neg hq, if_neg hq, if_neg hq, set, List.lookup_cons, lookup_without]
    by_cases hp : q = p
    · simp [hp]
    · have hb : (q == p) = false := by simpa using hp
      simp [hb, hp]

theorem get?_unset (fs : FileSystem) (p q : Place) :
    (fs.unset p).get? q =
      if q = [] then some .directory else if q = p then none else fs.get? q := by
  by_cases hq : q = []
  · simp [get?, hq]
  · rw [get?, get?, if_neg hq, if_neg hq, if_neg hq, unset, lookup_without]

def isName (n : Bytes) : Bool := !n.contains 0 && n.length ≤ 255

def step (p : Place) (name : Bytes) : Place :=
  if name = [] ∨ name = [0x2E] then p else if name = [0x2E, 0x2E] then p.dropLast else p ++ [name]

/-- Follows a path from a place. All that it passes through must be directories. -/
def resolveFrom? (fs : FileSystem) : Place → FilePath → Option Place
  | p, [] => some p
  | p, n :: r =>
    if fs.get? p = some .directory && isName n then fs.resolveFrom? (step p n) r else none

def isPath (path : FilePath) : Bool := path.all (!·.contains 0) && path.textLength < 4096

def resolve? (fs : FileSystem) (path : FilePath) : Option Place :=
  if isPath path then fs.resolveFrom? [] path else none

def find? (fs : FileSystem) (path : FilePath) : Option Node := (fs.resolve? path).bind fs.get?

/-- Makes every place on the way a directory, as far as that is possible. -/
def createDirectoriesFrom (fs : FileSystem) : Place → FilePath → Outcome Unit × FileSystem
  | _, [] => (.ok (), fs)
  | p, n :: r =>
    if isName n then
      let q := step p n
      match fs.get? q with
      | some .directory => fs.createDirectoriesFrom q r
      | some (.file _) => (.error .fileSystem, fs)
      | none => (fs.set q .directory).createDirectoriesFrom q r
    else (.error .fileSystem, fs)

def createDirectories (fs : FileSystem) (path : FilePath) : Outcome Unit × FileSystem :=
  if isPath path then fs.createDirectoriesFrom [] path else (.error .fileSystem, fs)

inductive Creation
  | created (fs : FileSystem) (place : Place)
  | taken
  | failed

def createNew (fs : FileSystem) (path : FilePath) : Creation :=
  match fs.resolve? path with
  | none => .failed
  | some p =>
    match fs.get? p with
    | some _ => .taken
    | none => .created (fs.set p (.file [])) p

def append (fs : FileSystem) (p : Place) (bs : Bytes) : FileSystem :=
  match fs.get? p with
  | some (.file old) => fs.set p (.file (old ++ bs))
  | _ => fs

def write (fs : FileSystem) (path : FilePath) (bs : Bytes) : Outcome FileSystem :=
  match fs.resolve? path with
  | none => .error .fileSystem
  | some p =>
    if fs.get? p = some .directory then .error .fileSystem else .ok (fs.set p (.file bs))

def remove (fs : FileSystem) (path : FilePath) : Outcome FileSystem :=
  match fs.resolve? path with
  | none => .error .fileSystem
  | some p =>
    match fs.get? p with
    | some (.file _) => .ok (fs.unset p)
    | _ => .error .fileSystem

def childName? (dir p : Place) : Option Bytes :=
  match p.getLast? with
  | some n => if p.dropLast = dir then some n else none
  | none => none

def list (fs : FileSystem) (path : FilePath) : Outcome (List (Bytes × Node)) :=
  match fs.resolve? path with
  | none => .error .fileSystem
  | some dir =>
    if fs.get? dir = some .directory then
      .ok ((fs.entries.filterMap fun e ↦ (childName? dir e.1).map fun n ↦ (n, e.2)).mergeSort fun a
        b ↦ a.1 ≤ b.1)
    else .error .fileSystem

end FileSystem

end TableLog
