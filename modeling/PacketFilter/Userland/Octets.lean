/-! # Octets

What programs read and write is bytes. A text of *octets* is a `String` whose characters have numbers below 256 and
stand for one byte each, so that bytes that are no Unicode text can be handled like any other text. `ofText` gives the
octets of a text in UTF-8, `toText` reads octets back as a text, and `bytes` and `ofBytes` are the two directions
between octets and bytes. `Utf8.decode` reads bytes as a text and never fails: bytes that are no character give U+FFFD,
one for each longest start of a character that stands there. -/

/-! ## Characters of bytes

What begins a character says how many bytes go on with it and between which bounds the next one is; `Lead` records
that. -/

namespace PacketFilter.Text.Utf8

/-- What a byte says that begins a character of several bytes. -/
structure Lead where
  /-- The part of the number of the character that stands in this byte. -/
  bits : Nat
  /-- How many bytes go on with the character. -/
  more : Nat
  /-- The least value of the next byte. -/
  least : UInt8 := 0x80
  /-- The greatest value of the next byte. -/
  greatest : UInt8 := 0xbf

/-- What a byte says about the character that begins with it, if it begins one of several bytes. The bounds
leave out numbers that fewer bytes can write, surrogates, and numbers that are too great. -/
def lead? (b : UInt8) : Option Lead :=
  if b < 0xc2 then none
  else if b < 0xe0 then some { bits := b.toNat - 0xc0, more := 1 }
  else if b = 0xe0 then some { bits := 0, more := 2, least := 0xa0 }
  else if b = 0xed then some { bits := 13, more := 2, greatest := 0x9f }
  else if b < 0xf0 then some { bits := b.toNat - 0xe0, more := 2 }
  else if b = 0xf0 then some { bits := 0, more := 3, least := 0x90 }
  else if b < 0xf4 then some { bits := b.toNat - 0xf0, more := 3 }
  else if b = 0xf4 then some { bits := 4, more := 3, greatest := 0x8f }
  else none

/-- Whether a byte goes on with a character. -/
def goesOn (b : UInt8) : Bool :=
  0x80 ≤ b && b ≤ 0xbf

/-- The bytes at the start of a list that go on with a character. -/
def tail (lead : Lead) : List UInt8 → List UInt8
  | [] => []
  | b :: bs =>
    if lead.least ≤ b ∧ b ≤ lead.greatest then b :: (bs.take (lead.more - 1)).takeWhile goesOn else []

/-- The character of a first byte and the bytes after it, U+FFFD if some are missing. -/
def char (lead : Lead) (tail : List UInt8) : Char :=
  if tail.length = lead.more then
    Char.ofNat (tail.foldl (fun n b => 64 * n + (b.toNat - 0x80)) lead.bits)
  else '\ufffd'

def decodeList (bs : List UInt8) : List Char :=
  match bs with
  | [] => []
  | b :: bs =>
    if b < 0x80 then Char.ofNat b.toNat :: decodeList bs
    else
      match lead? b with
      | none => '\ufffd' :: decodeList bs
      | some lead =>
        let tail := tail lead bs
        char lead tail :: decodeList (bs.drop tail.length)
termination_by bs.length
decreasing_by
  all_goals (simp only [List.length_drop, List.length_cons]; omega)

def decode (bytes : ByteArray) : String :=
  String.ofList (decodeList bytes.data.toList)

end PacketFilter.Text.Utf8

/-! ## Texts of octets -/

namespace PacketFilter.Text.Octets

/-- The character that stands for a byte. -/
def char (b : UInt8) : Char :=
  Char.ofNat b.toNat

/-- The byte that a character stands for. -/
def byte (c : Char) : UInt8 :=
  UInt8.ofNat c.toNat

/-- Bytes as octets. -/
def ofBytes (bytes : ByteArray) : String :=
  String.ofList (bytes.data.toList.map char)

def bytes (octets : String) : ByteArray :=
  ⟨(octets.toList.map byte).toArray⟩

def ofText (text : String) : String :=
  if text.toList.all (·.toNat < 128) then text else ofBytes text.toUTF8

/-- The text that octets write. Octets that are no character give U+FFFD. -/
def toText (octets : String) : String :=
  Utf8.decode (bytes octets)

theorem byte_char (b : UInt8) : byte (char b) = b := by
  have hv : b.toNat.isValidChar := Or.inl (by have : b.toNat < 256 := b.toNat_lt; omega)
  rw [byte, char, Char.ofNat, dif_pos hv]
  exact UInt8.ofNat_toNat

theorem bytes_ofBytes (bs : ByteArray) : bytes (ofBytes bs) = bs := by
  simp [bytes, ofBytes, Function.comp_def, byte_char]

theorem ofBytes_inj {a b : ByteArray} (h : ofBytes a = ofBytes b) : a = b := by
  rw [← bytes_ofBytes a, h, bytes_ofBytes]

/-- Only an option for an append looks like one in octets. -/
theorem ofText_eq_appendOption {text : String} (h : ofText text = "-A") : text = "-A" := by
  unfold ofText at h
  split at h
  · exact h
  · have hb : ofBytes "-A".toUTF8 = "-A" := by decide
    have := ofBytes_inj (h.trans hb.symm)
    exact String.toByteArray_inj.mp this

end PacketFilter.Text.Octets
