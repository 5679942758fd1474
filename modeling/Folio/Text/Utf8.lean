/-! Texts as bytes in UTF-8. -/

namespace Folio.Text

/-- The bytes of a text. -/
def utf8 (s : String) : List UInt8 :=
  s.toUTF8.data.toList

/-- The text that bytes write, if they write one. -/
def ofUtf8? (bytes : List UInt8) : Option String :=
  String.fromUTF8? { data := bytes.toArray }

/-- The bytes of a text write it. -/
theorem ofUtf8?_utf8 (s : String) : ofUtf8? (utf8 s) = some s := by
  have h : ({ data := (utf8 s).toArray } : ByteArray) = s.toUTF8 := by simp [utf8]
  unfold ofUtf8?
  rw [h]
  unfold String.fromUTF8?
  split
  · rfl
  · next hs => exact absurd s.isValidUTF8 hs

end Folio.Text
