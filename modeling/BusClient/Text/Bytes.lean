/-!
# Texts as bytes

What travels on a bus is bytes. A text is sent as its UTF-8 bytes, and `Bytes.text?` reads them
back: `text?_ofText` says that nothing is lost. A place in a text is given by its line and by the
number of bytes before it on that line.
-/

namespace BusClient

/-- A sequence of bytes, such as what is left of a stream. -/
abbrev Bytes := List UInt8

namespace Bytes

/-- The UTF-8 bytes of a text. -/
def ofText (text : String) : Bytes := text.toByteArray.data.toList

/-- The text that the bytes encode, if they are UTF-8. -/
def text? (bytes : Bytes) : Option String := String.fromUTF8? bytes.toByteArray

theorem toByteArray_ofText (text : String) : (ofText text).toByteArray = text.toByteArray := by
  apply ByteArray.ext
  apply Array.toList_inj.mp
  simp [ofText]

/-- A text comes back from its bytes. -/
theorem text?_ofText (text : String) : text? (ofText text) = some text := by
  rw [text?, toByteArray_ofText, String.fromUTF8?, dif_pos text.isValidUTF8]
  rfl

/-- The bytes that encode a text are the bytes of that text, and no others. -/
theorem text?_eq_some_iff {bytes : Bytes} {text : String} :
    text? bytes = some text ↔ bytes = ofText text := by
  constructor
  · intro h
    unfold text? String.fromUTF8? at h
    split at h
    · cases h
      simp [ofText, String.fromUTF8]
    · cases h
  · rintro rfl
    exact text?_ofText text

@[simp] theorem ofText_empty : ofText "" = [] := by decide

@[simp] theorem ofText_append (a b : String) : ofText (a ++ b) = ofText a ++ ofText b := by
  simp [ofText, ByteArray.data_append]

@[simp] theorem ofText_push (text : String) (c : Char) :
    ofText (text.push c) = ofText text ++ String.utf8EncodeChar c := by
  simp [ofText, List.utf8Encode]

/-- A text made of characters has the bytes of the characters, one after the other. -/
theorem ofText_ofList (cs : List Char) :
    ofText (String.ofList cs) = cs.flatMap String.utf8EncodeChar := by
  simp [ofText, List.utf8Encode]

/-- The bytes of a text are those of its characters. -/
theorem ofText_eq_flatMap (text : String) :
    ofText text = text.toList.flatMap String.utf8EncodeChar := by
  rw [← ofText_ofList, String.ofList_toList]

/-- A place in a text: lines count from one, columns are the bytes before it on its line. -/
structure Place where
  line : Nat
  column : Nat
  deriving DecidableEq, Repr

/-- The place after one more byte: a line feed opens the next line. -/
def Place.advance (place : Place) (byte : UInt8) : Place :=
  if byte = 0x0a then ⟨place.line + 1, 0⟩ else ⟨place.line, place.column + 1⟩

/-- The place at which the bytes end. -/
def endPlace (bytes : Bytes) : Place := bytes.foldl Place.advance ⟨1, 0⟩

/-- The place at which only `left` bytes of the text are still to come. -/
def placeBefore (bytes : Bytes) (left : Nat) : Place :=
  endPlace (bytes.take (bytes.length - left))

end Bytes

end BusClient
