import PluginConsent.Proofs.Json.Text
import PluginConsent.Settings.Store

namespace PluginConsent

theorem fromUTF8?_toUTF8 (text : String) : String.fromUTF8? text.toUTF8 = some text := by
  rw [String.fromUTF8?, String.toUTF8_eq_toByteArray, dif_pos text.isValidUTF8]
  rfl

theorem toUTF8_of_fromUTF8? {bytes : ByteArray} {text : String}
    (h : String.fromUTF8? bytes = some text) : text.toUTF8 = bytes := by
  rw [String.fromUTF8?] at h
  split at h
  · cases h; rfl
  · cases h

theorem readBounded_ok_iff {limit : Nat} {content : ByteArray} {text : String} :
    readBounded limit content = .ok (some text) ↔
      content = text.toUTF8 ∧ text.utf8ByteSize ≤ limit := by
  have hsize (s : String) : s.toUTF8.size = s.utf8ByteSize := rfl
  have hall (h : content.size ≤ limit) : content.extract 0 (limit + 1) = content := by
    have hmax : max (limit + 1) content.size = limit + 1 := by omega
    rw [← hmax, ByteArray.extract_zero_max_size]
  constructor
  · intro h
    rw [readBounded] at h
    split at h
    · cases h
    next read hread =>
    split at h
    · cases h
    next hlong =>
    cases h
    have hbytes := toUTF8_of_fromUTF8? hread
    have hextract := congrArg ByteArray.size hbytes
    rw [ByteArray.size_extract, hsize] at hextract
    rw [hall (by omega)] at hbytes
    exact ⟨hbytes.symm, Nat.not_lt.mp hlong⟩
  · rintro ⟨rfl, hle⟩
    rw [readBounded, hall hle, fromUTF8?_toUTF8]
    simp only [if_neg (Nat.not_lt.mpr hle)]

namespace Document

variable {d fields : Document}

theorem ofText_text (h : Json.ofString? (Json.object d).pretty = some (.object fields)) :
    ofText (text d) = fields := by
  have hread : Json.ofString? (text d) = some (.object fields) := Json.ofString?_newline h
  have hblank : (text d).toList.all Text.isBlank = false := by
    obtain ⟨rest, hrest⟩ := List.head?_eq_some_iff.mp (Json.head_pretty_object d)
    have hbrace : Text.isBlank '\x7b' = false := by decide
    simp [text, hrest, hbrace]
  simp [ofText, hblank, hread, Json.object?]

theorem ofContent_text (h : Json.ofString? (Json.object d).pretty = some (.object fields)) :
    ofContent (text d).toUTF8 = if (text d).utf8ByteSize ≤ maxBytes then fields else [] := by
  by_cases hle : (text d).utf8ByteSize ≤ maxBytes
  · rw [if_pos hle, ofContent, readBounded_ok_iff.mpr ⟨rfl, hle⟩]
    exact ofText_text h
  · rw [if_neg hle, ofContent]
    split
    · next read hread =>
      obtain ⟨hbytes, hread⟩ := readBounded_ok_iff.mp hread
      have hsize : (text d).utf8ByteSize = read.utf8ByteSize := congrArg ByteArray.size hbytes
      exact absurd (hsize ▸ hread) hle
    · rfl

end Document

end PluginConsent
