/-!
# The bytes of texts

Where bytes need not be a text, a text takes part as its bytes in UTF-8. `ofBytes?_bytes` says that
they can be read back.
-/

namespace AlertRegistry.Text

/-- The bytes of a text. -/
def bytes (s : String) : List UInt8 :=
  s.toUTF8.data.toList

/-- The text that has these bytes, if there is one. -/
def ofBytes? (bs : List UInt8) : Option String :=
  String.fromUTF8? ⟨bs.toArray⟩

@[simp] theorem ofBytes?_bytes (s : String) : ofBytes? (bytes s) = some s := by
  simp only [ofBytes?, bytes, Array.toArray_toList, String.fromUTF8?, String.toUTF8_eq_toByteArray,
    dif_pos s.isValidUTF8]
  rfl

end AlertRegistry.Text
