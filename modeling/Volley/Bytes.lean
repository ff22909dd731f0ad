/-!
# Byte strings

Everything that goes on a wire is a list of bytes. This module fixes the two conversions the frame
format needs: whole numbers to and from big-endian bytes, and text to and from UTF-8.
-/

namespace Volley

/-- A string of bytes, in wire order. -/
abbrev Bytes := List UInt8

namespace Bytes

/-- The low 16 bits of `n` as two bytes, the high byte first. -/
def ofUInt16 (n : Nat) : Bytes :=
  [UInt8.ofNat (n / 0x100), UInt8.ofNat n]

/-- The low 32 bits of `n` as four bytes, the high byte first. -/
def ofUInt32 (n : Nat) : Bytes :=
  [UInt8.ofNat (n / 0x1000000), UInt8.ofNat (n / 0x10000), UInt8.ofNat (n / 0x100), UInt8.ofNat n]

/-- The number that two bytes, the high byte first, stand for, and what follows them. -/
def readUInt16? : Bytes → Option (Nat × Bytes)
  | a :: b :: rest => some (a.toNat * 0x100 + b.toNat, rest)
  | _ => none

/-- The number that four bytes, the high byte first, stand for, and what follows them. -/
def readUInt32? : Bytes → Option (Nat × Bytes)
  | a :: b :: c :: d :: rest =>
    some (a.toNat * 0x1000000 + b.toNat * 0x10000 + c.toNat * 0x100 + d.toNat, rest)
  | _ => none

/-- The UTF-8 form of a text. -/
def ofText (text : String) : Bytes :=
  text.toUTF8.data.toList

/-- The text whose UTF-8 form `bytes` are, if there is one. -/
def text? (bytes : Bytes) : Option String :=
  String.fromUTF8? ⟨bytes.toArray⟩

@[simp]
theorem text?_ofText (text : String) : text? (ofText text) = some text := by
  have : (⟨text.toUTF8.data.toList.toArray⟩ : ByteArray) = text.toUTF8 := rfl
  rw [text?, ofText, this]
  exact dif_pos text.isValidUTF8

theorem ofText_of_text? {bytes : Bytes} {text : String} (h : text? bytes = some text) :
    ofText text = bytes := by
  unfold text? String.fromUTF8? at h
  split at h
  · cases h
    rfl
  · cases h

@[simp]
theorem length_ofUInt16 (n : Nat) : (ofUInt16 n).length = 2 := rfl

@[simp]
theorem length_ofUInt32 (n : Nat) : (ofUInt32 n).length = 4 := rfl

theorem readUInt16?_ofUInt16 {n : Nat} (h : n < 0x10000) (rest : Bytes) :
    readUInt16? (ofUInt16 n ++ rest) = some (n, rest) := by
  simp only [ofUInt16, List.cons_append, List.nil_append, readUInt16?, UInt8.toNat_ofNat']
  congr 2
  omega

theorem readUInt32?_ofUInt32 {n : Nat} (h : n < 0x100000000) (rest : Bytes) :
    readUInt32? (ofUInt32 n ++ rest) = some (n, rest) := by
  simp only [ofUInt32, List.cons_append, List.nil_append, readUInt32?, UInt8.toNat_ofNat']
  congr 2
  omega

end Bytes

end Volley
