namespace StatusPage.Text

def encode (text : String) : List UInt8 := text.toByteArray.data.toList

def decode? (bytes : List UInt8) : Option String := String.fromUTF8? ⟨bytes.toArray⟩

/-- The longest text that the bytes begin with. -/
def front (bytes : List UInt8) : String :=
  ((List.range bytes.length).reverse.findSome? fun n => decode? (bytes.take n)).getD ""

theorem decode?_encode (text : String) : decode? (encode text) = some text := by
  have same : (⟨(encode text).toArray⟩ : ByteArray) = text.toByteArray := by simp [encode]
  simp [decode?, same, String.fromUTF8?, text.isValidUTF8, String.fromUTF8]

theorem encode_append (s t : String) : encode (s ++ t) = encode s ++ encode t := by
  simp [encode]

end StatusPage.Text
