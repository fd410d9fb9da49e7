import TableLog.Json.Tree

namespace TableLog

def utf8 (s : String) : Bytes := s.toByteArray.data.toList

def ofUtf8? (bs : Bytes) : Option String := String.fromUTF8? ⟨bs.toArray⟩

@[simp] theorem ofUtf8?_utf8 (s : String) : ofUtf8? (utf8 s) = some s := by
  have h : (⟨(utf8 s).toArray⟩ : ByteArray) = s.toByteArray := by simp [utf8]
  rw [ofUtf8?, h, String.fromUTF8?, dif_pos s.isValidUTF8]
  rfl

namespace Piece

def isHigh (u : Nat) : Bool := 0xD800 ≤ u && u < 0xDC00

def isLow (u : Nat) : Bool := 0xDC00 ≤ u && u < 0xE000

def pair (high low : Nat) : Nat := 0x10000 + (high - 0xD800) * 0x400 + (low - 0xDC00)

def encode (codePoint : Nat) : Bytes := String.utf8EncodeChar (Char.ofNat codePoint)

/-- The bytes that pieces stand for. Surrogates come in pairs, a high one first. -/
def bytes? : List Piece → Option Bytes
  | [] => some []
  | .byte b :: r => (bytes? r).map (b :: ·)
  | .codeUnit u :: r =>
    if isHigh u then
      match r with
      | .codeUnit v :: r => if isLow v then (bytes? r).map (encode (pair u v) ++ ·) else none
      | _ => none
    else if isLow u then none
    else (bytes? r).map (encode u ++ ·)

def text? (ps : List Piece) : Option String := (bytes? ps).bind ofUtf8?

/-- Escapes of one letter, as letter and byte. -/
def shortEscapes : List (UInt8 × UInt8) :=
  [(0x22, 0x22), (0x5C, 0x5C), (0x62, 0x08), (0x66, 0x0C), (0x6E, 0x0A), (0x72, 0x0D), (0x74, 0x09)]

def letter? (b : UInt8) : Option UInt8 := (shortEscapes.find? (·.2 = b)).map (·.1)

/-- The byte that a letter escapes. A slash may be escaped and never is. -/
def escaped? (l : UInt8) : Option UInt8 :=
  if l = 0x2F then some 0x2F else (shortEscapes.find? (·.1 = l)).map (·.2)

/-- A control byte without a letter of its own is written as a code unit. -/
def ofByte (b : UInt8) : Piece := if b < 0x20 ∧ letter? b = none then .codeUnit b.toNat else .byte b

def ofText (s : String) : List Piece := (utf8 s).map ofByte

theorem encode_control :
    ∀ n < 32, encode n = [UInt8.ofNat n] ∧ isHigh n = false ∧ isLow n = false := by decide

theorem bytes?_ofByte (b : UInt8) (r : List Piece) :
    bytes? (ofByte b :: r) = (bytes? r).map (b :: ·) := by
  unfold ofByte
  split
  · rename_i h
    obtain ⟨he, hh, hl⟩ := encode_control b.toNat (by simpa using UInt8.lt_iff_toNat_lt.1 h.1)
    rw [bytes?.eq_def]
    simp [he, hh, hl]
  · rfl

theorem bytes?_map_ofByte (bs : Bytes) : bytes? (bs.map ofByte) = some bs := by
  induction bs with
  | nil => rfl
  | cons b r ih => rw [List.map_cons, bytes?_ofByte, ih]; rfl

@[simp] theorem text?_ofText (s : String) : text? (ofText s) = some s := by
  rw [text?, ofText, bytes?_map_ofByte, Option.bind_some, ofUtf8?_utf8]

end Piece

end TableLog
