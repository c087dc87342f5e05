/-!
# UTF-8

A text as bytes, and the text that bytes are, where they are one.
-/

namespace Utf8

def encode (text : String) : List UInt8 := text.toUTF8.data.toList

def decode (bytes : List UInt8) : Option String := String.fromUTF8? ⟨⟨bytes⟩⟩

theorem decode_of_encode (text : String) : decode (encode text) = some text := by
  have hbytes : (⟨⟨encode text⟩⟩ : ByteArray) = text.toByteArray := rfl
  rw [decode, hbytes, String.fromUTF8?, dif_pos text.isValidUTF8]
  rfl

theorem encode_append (s t : String) : encode (s ++ t) = encode s ++ encode t := by
  rw [encode, String.toUTF8_eq_toByteArray, String.toByteArray_append]
  simp [encode]

theorem encode_empty : encode "" = [] := rfl

theorem encode_injective {s t : String} (h : encode s = encode t) : s = t := by
  have hdecode := decode_of_encode s
  rw [h, decode_of_encode] at hdecode
  exact (Option.some.inj hdecode).symm

end Utf8
