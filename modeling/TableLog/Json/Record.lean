import TableLog.Dict
import TableLog.Word
import TableLog.Json.Printer
import TableLog.Json.Reader

namespace TableLog

namespace Json

def text? : Json → Option String
  | .string ps => Piece.text? ps
  | _ => none

def bool? : Json → Option Bool
  | .bool b => some b
  | _ => none

def int? : Json → Option Int
  | .number l => integer? l
  | _ => none

def int64? (v : Json) : Option Int64 := v.int?.bind word?

def int32? (v : Json) : Option Int32 := v.int?.bind TableLog.int32?

def list? {α : Type} (read : Json → Option α) : Json → Option (List α)
  | .array vs => vs.mapM read
  | _ => none

def keyed? {α : Type} (read : Json → Option α) (ms : List (List Piece × Json)) :
    Option (List (String × α)) :=
  ms.mapM fun m ↦ (Piece.text? m.1).bind fun k ↦ (read m.2).map fun v ↦ (k, v)

/-- A map of texts. Of two members with one key the later one counts. -/
def dict? : Json → Option (Dict String)
  | .object ms => (keyed? text? ms).map Dict.ofList
  | _ => none

def ofDict (d : Dict String) : Json :=
  .object (d.entries.map fun e ↦ (Piece.ofText e.1, ofText e.2))

@[simp] theorem text?_ofText (s : String) : (ofText s).text? = some s := Piece.text?_ofText s

@[simp] theorem int64?_ofInt (w : Int64) : (ofInt w.toInt).int64? = some w := by
  simp [int64?, ofInt, int?]

@[simp] theorem int32?_ofInt (w : Int32) : (ofInt w.toInt).int32? = some w := by
  simp [int32?, ofInt, int?]

end Json

/-- An object whose known members occur at most once, others being skipped, or an array of the
values of its first fields in declared order. In an array only a defaulted field may be left out. -/
structure Record where
  positional : Bool
  given : List (String × Json)

namespace Record

def ofJson? (names : List String) : Json → Option Record
  | .object ms =>
    (Json.keyed? some ms).bind fun all ↦
      let given := all.filter fun m ↦ names.contains m.1
      if (given.map (·.1)).Nodup then some ⟨false, given⟩ else none
  | .array vs => if vs.length ≤ names.length then some ⟨true, names.zip vs⟩ else none
  | _ => none

variable {α : Type}

def required (r : Record) (name : String) (read : Json → Option α) : Option α :=
  (r.given.lookup name).bind read

def optional (r : Record) (name : String) (read : Json → Option α) : Option (Option α) :=
  match r.given.lookup name with
  | some .null => some none
  | some v => (read v).map some
  | none => if r.positional then none else some none

def defaulted (r : Record) (name : String) (read : Json → Option α) (default : α) : Option α :=
  match r.given.lookup name with
  | some v => read v
  | none => some default

end Record

/-- A member as it is written: absent options are left out. -/
abbrev Member := Option (List Piece × Json)

namespace Member

def value (name : String) (v : Json) : Member := some (Piece.ofText name, v)

def text (name : String) (s : String) : Member := value name (.ofText s)

def long (name : String) (n : Int64) : Member := value name (.ofInt n.toInt)

def bool (name : String) (b : Bool) : Member := value name (.bool b)

def dict (name : String) (d : Dict String) : Member := value name (.ofDict d)

def optional {α : Type} (write : String → α → Member) (name : String) (v : Option α) : Member :=
  v.bind (write name)

end Member

def Json.record (ms : List Member) : Json := .object (ms.filterMap id)

end TableLog
