/-!
Text as bytes. A byte string that is not well-formed UTF-8 has no text.
-/
namespace FirewallAgent

abbrev Bytes := List UInt8

namespace Text

def toBytes (s : String) : Bytes := s.toUTF8.data.toList

def ofBytes? (b : Bytes) : Option String := String.fromUTF8? ⟨b.toArray⟩

@[simp] theorem ofBytesToBytes (s : String) : ofBytes? (toBytes s) = some s := by
  simp only [ofBytes?, toBytes, String.fromUTF8?, String.toUTF8_eq_toByteArray,
    Array.toArray_toList]
  exact dif_pos s.isValidUTF8

end Text
end FirewallAgent
