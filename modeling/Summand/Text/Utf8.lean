/-! Texts travel as bytes in UTF-8. Reading accepts exactly the byte lists
that writing produces, so bytes and text determine each other. -/
namespace Summand.Utf8

/-- The bytes of a text, character by character. -/
def encode (text : String) : List UInt8 :=
  text.toList.flatMap String.utf8EncodeChar

/-- The text that some bytes spell, unless they are malformed. Overlong forms,
surrogates and cut sequences are malformed. -/
def decode? (bytes : List UInt8) : Option String :=
  String.fromUTF8? ⟨⟨bytes⟩⟩

theorem encode_eq_toByteArray (text : String) : encode text = text.toByteArray.data.toList := by
  rw [← String.utf8Encode_toList, List.utf8Encode, List.toList_data_toByteArray, encode]

/-- Bytes are readable exactly when they are what some text is written as. -/
theorem decode?_eq_some_iff {bytes : List UInt8} {text : String} :
    decode? bytes = some text ↔ encode text = bytes := by
  rw [encode_eq_toByteArray]
  simp only [decode?, String.fromUTF8?]
  constructor
  · intro read
    split at read
    · cases read; rfl
    · cases read
  · intro written
    have same : text.toByteArray = ⟨⟨bytes⟩⟩ := by
      rw [← written]
    have valid : (⟨⟨bytes⟩⟩ : ByteArray).IsValidUTF8 := same ▸ text.isValidUTF8
    simp only [valid, ↓reduceDIte, Option.some.injEq]
    exact String.toByteArray_inj.mp same.symm

theorem decode?_encode (text : String) : decode? (encode text) = some text :=
  decode?_eq_some_iff.mpr rfl

end Summand.Utf8
