/-!
Text as bytes.
-/

namespace LabelPress.Text

def bytes (s : String) : List UInt8 := s.toUTF8.data.toList

def ofBytes? (b : List UInt8) : Option String := String.fromUTF8? ⟨b.toArray⟩

theorem ofBytes?_eq_some_iff {b : List UInt8} {s : String} :
    ofBytes? b = some s ↔ b = s.toUTF8.data.toList := by
  unfold ofBytes? String.fromUTF8?
  constructor
  · intro h
    split at h
    · cases h
      rfl
    · cases h
  · rintro rfl
    have valid : s.toByteArray.IsValidUTF8 := s.isValidUTF8
    simp [String.toUTF8, valid, String.fromUTF8]

end LabelPress.Text
