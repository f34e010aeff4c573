/-!
# Texts as bytes

* `utf8` : the bytes of a text.
* `ofUtf8?` : the text that some bytes are, if they are one; `ofUtf8?_utf8` says that a
  text is read back from its bytes.
-/

namespace BenchSweep

/-- The bytes of a text in UTF-8. -/
def utf8 (s : String) : List UInt8 := s.toUTF8.data.toList

/-- The text that some bytes are in UTF-8. -/
def ofUtf8? (data : List UInt8) : Option String := String.fromUTF8? ⟨data.toArray⟩

/-- A text is read back from its bytes. -/
theorem ofUtf8?_utf8 (s : String) : ofUtf8? (utf8 s) = some s := by
  have same : (⟨(utf8 s).toArray⟩ : ByteArray) = s.toUTF8 := by simp [utf8]
  rw [ofUtf8?, same, String.fromUTF8?]
  exact dif_pos s.isValidUTF8

/-- The bytes of two texts in a row follow one another. -/
theorem utf8_append (s t : String) : utf8 (s ++ t) = utf8 s ++ utf8 t := by
  simp [utf8]

end BenchSweep
