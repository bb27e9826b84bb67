set_option autoImplicit false

/-! # Bytes and their reading as text

Files and streams hold bytes; definitions and headers are text.  `Text.utf8` is
the UTF-8 form of a text and `Text.ofUtf8?` reads it back, refusing every byte
sequence that is not well-formed UTF-8.
-/

namespace RecordHeader

/-- What a file or a stream holds. -/
abbrev Bytes := List UInt8

namespace Text

/-- The UTF-8 form of a text. -/
def utf8 (text : String) : Bytes :=
  text.toUTF8.data.toList

/-- The text with the given UTF-8 form, if the bytes are well-formed. -/
def ofUtf8? (bytes : Bytes) : Option String :=
  String.fromUTF8? ⟨bytes.toArray⟩

/-- Reading back the UTF-8 form of a text gives the text. -/
@[simp]
theorem ofUtf8?_utf8 (text : String) : ofUtf8? (utf8 text) = some text := by
  have h : (⟨(utf8 text).toArray⟩ : ByteArray) = text.toUTF8 := by
    simp [utf8]
  simp only [ofUtf8?, h, String.fromUTF8?, String.toUTF8_eq_toByteArray, dif_pos text.isValidUTF8]
  rfl

/-- Bytes are read as the text whose UTF-8 form they are. -/
theorem ofUtf8?_eq_some_iff {bytes : Bytes} {text : String} :
    ofUtf8? bytes = some text ↔ utf8 text = bytes := by
  constructor
  · intro h
    unfold ofUtf8? String.fromUTF8? at h
    split at h
    · obtain rfl := Option.some.inj h
      simp [utf8, String.fromUTF8]
    · cases h
  · rintro rfl
    exact ofUtf8?_utf8 text

/-- Bytes that are the UTF-8 form of no text are refused. -/
theorem ofUtf8?_eq_none_iff {bytes : Bytes} :
    ofUtf8? bytes = none ↔ ∀ text, utf8 text ≠ bytes := by
  simp only [Option.eq_none_iff_forall_ne_some, ne_eq, ofUtf8?_eq_some_iff]

/-- Texts with the same UTF-8 form are equal. -/
theorem utf8_injective {s t : String} (h : utf8 s = utf8 t) : s = t := by
  have : some s = some t := by rw [← ofUtf8?_utf8 s, ← ofUtf8?_utf8 t, h]
  exact Option.some.inj this

end Text

end RecordHeader
