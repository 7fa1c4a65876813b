import PluginConsent.Proofs.Rule.Grammar
import PluginConsent.Proofs.Rule.Reduce
import PluginConsent.Rule.Cut

namespace PluginConsent

namespace Text

theorem slice_append (before s after : String) :
    slice (before ++ s ++ after) before.utf8ByteSize (before ++ s).utf8ByteSize = .ok s := by
  have hrange : before.utf8ByteSize ≤ (before ++ s).utf8ByteSize ∧
      (before ++ s).utf8ByteSize ≤ (before ++ s ++ after).utf8ByteSize := by
    simp only [String.utf8ByteSize_append]
    omega
  have hstart : String.Pos.Raw.IsValid (before ++ s ++ after) ⟨before.utf8ByteSize⟩ :=
    String.Pos.Raw.isValid_iff_exists_append.mpr ⟨before, s ++ after, String.append_assoc, rfl⟩
  have hstop : String.Pos.Raw.IsValid (before ++ s ++ after) ⟨(before ++ s).utf8ByteSize⟩ :=
    String.Pos.Raw.isValid_iff_exists_append.mpr ⟨before ++ s, after, rfl, rfl⟩
  have hbytes : (before ++ s ++ after).toByteArray.extract before.utf8ByteSize
      (before ++ s).utf8ByteSize = s.toByteArray := by
    rw [String.toByteArray_append, ← String.size_toByteArray (s := before ++ s),
      ByteArray.extract_append_size_left, String.toByteArray_append]
    exact ByteArray.extract_append_eq_right rfl ByteArray.size_append
  rw [slice, if_pos hrange, dif_pos hstart, dif_pos hstop]
  exact congrArg Except.ok (String.toByteArray_inj.mp (String.toByteArray_extract.trans hbytes))

example : slice "日(" 1 3 = .error (.insideCharacter 1) := by rfl

theorem offset?_append {c : Char} {before : List Char} (h : c ∉ before) (after : List Char) :
    offset? c (before ++ c :: after) = some (String.ofList before).utf8ByteSize := by
  induction before with
  | nil => simp [offset?]
  | cons d ds ih =>
      rw [List.mem_cons, not_or] at h
      rw [List.cons_append, offset?, if_neg (Ne.symm h.1), ih h.2]
      simp

theorem offset?_eq_none {c : Char} {cs : List Char} (h : c ∉ cs) : offset? c cs = none := by
  induction cs with
  | nil => rfl
  | cons d ds ih =>
      rw [List.mem_cons, not_or] at h
      rw [offset?, if_neg (Ne.symm h.1), ih h.2]
      rfl

end Text

namespace Clause

variable {rule : String} {c : Clause}

theorem ofRule?_eq_some_iff : ofRule? rule = some c ↔
    rule = c.text ∧ c.tool ≠ "" ∧ ∀ d ∈ c.tool.toList, isToolChar d = true := by
  constructor
  · intro h
    refine ⟨(text_of_ofRule? h).symm, ?_⟩
    unfold ofRule? at h
    split at h
    · obtain ⟨⟨hne, hall, _⟩, hc⟩ := Option.ite_none_right_eq_some.mp h
      cases hc
      rw [String.toList_ofList]
      exact ⟨fun hempty => hne (String.ofList_eq_empty_iff.mp hempty), List.all_eq_true.mp hall⟩
    · cases h
  · rintro ⟨rfl, hne, htool⟩
    exact ofRule?_text hne htool

theorem cut_text (h : '(' ∉ c.tool.toList) :
    cut c.text = .ok (if c.tool ≠ "" ∧ c.tool.toList.all isToolChar then some c else none) := by
  have hopening : Text.offset? '(' c.text.toList = some c.tool.utf8ByteSize := by
    rw [toList_text, List.append_assoc, List.cons_append, Text.offset?_append h, String.ofList_toList]
  have hinner : (Rule.stem? [')'] c.text.toList).map String.ofList =
      some (c.tool ++ "(" ++ c.pattern) := by
    rw [Rule.stem?_eq_some_iff.mpr (toList_text c), Option.map_some]
    exact congrArg some (String.toList_inj.mp (by simp))
  have htool : Text.slice c.text 0 c.tool.utf8ByteSize = .ok c.tool := by
    have hslice := Text.slice_append "" c.tool ("(" ++ c.pattern ++ ")")
    rwa [String.empty_append, ← String.append_assoc, ← String.append_assoc] at hslice
  have hpattern : Text.slice (c.tool ++ "(" ++ c.pattern) (c.tool.utf8ByteSize + 1)
      (c.tool ++ "(" ++ c.pattern).utf8ByteSize = .ok c.pattern := by
    have hslice := Text.slice_append (c.tool ++ "(") c.pattern ""
    rwa [String.append_empty, String.utf8ByteSize_append (s := c.tool)] at hslice
  rw [cut, hopening, hinner]
  simp only [htool, bind, Except.bind, hpattern, pure, Except.pure]
  split <;> rfl

theorem exists_text {inner : List Char} (hopening : '(' ∈ rule.toList)
    (hclosing : rule.toList = inner ++ [')']) : ∃ c, '(' ∉ c.tool.toList ∧ rule = text c := by
  obtain ⟨tool, after, hsplit, htool⟩ := List.eq_append_cons_of_mem hopening
  have hlast : (tool ++ '(' :: after).getLast? = some ')' := by
    rw [← hsplit, hclosing, List.getLast?_concat]
  rcases List.eq_nil_or_concat after with rfl | ⟨pattern, last, rfl⟩
  · rw [List.getLast?_concat] at hlast
    exact absurd hlast (by decide)
  · rw [List.concat_eq_append, ← List.cons_append, ← List.append_assoc, List.getLast?_concat] at hlast
    obtain rfl := Option.some.inj hlast
    refine ⟨⟨String.ofList tool, String.ofList pattern⟩, by simpa using htool, String.toList_inj.mp ?_⟩
    simp [hsplit, toList_text]

theorem cut_eq_none (h : ∀ c, '(' ∉ c.tool.toList → rule ≠ text c) : cut rule = .ok none := by
  unfold cut
  split
  · next opening inner hopening hinner =>
    obtain ⟨cs, hcs, _⟩ := Option.map_eq_some_iff.mp hinner
    have hmem : '(' ∈ rule.toList := by
      by_contra hmem
      rw [Text.offset?_eq_none hmem] at hopening
      cases hopening
    obtain ⟨c, htool, hrule⟩ := exists_text hmem (Rule.stem?_eq_some_iff.mp hcs)
    exact absurd hrule (h c htool)
  · rfl

/-- No rule is cut inside a character or beyond its end, and its parts are those told by its characters. -/
theorem cut_eq (rule : String) : cut rule = .ok (ofRule? rule) := by
  cases hparts : ofRule? rule with
  | some c =>
      obtain ⟨rfl, hne, htool⟩ := ofRule?_eq_some_iff.mp hparts
      have hopening : '(' ∉ c.tool.toList := fun h => absurd (htool _ h) (by decide)
      rw [cut_text hopening, if_pos ⟨hne, List.all_eq_true.mpr htool⟩]
  | none =>
      -- There may still be parentheses to cut at, when what stands before them is no name.
      by_cases h : ∃ c, '(' ∉ c.tool.toList ∧ rule = text c
      · obtain ⟨c, hopening, rfl⟩ := h
        rw [cut_text hopening, if_neg]
        rintro ⟨hne, hall⟩
        rw [ofRule?_text hne (List.all_eq_true.mp hall)] at hparts
        cases hparts
      · exact cut_eq_none fun c hopening hrule => h ⟨c, hopening, hrule⟩

/-- A rule has a tool and a pattern exactly if it is put together from them and the tool is a name; the
pattern may be any text. It is cut into them between characters. -/
theorem parts_inverse_to_text (rule : String) :
    (∀ tool pattern, ofRule? rule = some ⟨tool, pattern⟩ ↔
      rule = tool ++ "(" ++ pattern ++ ")" ∧ tool ≠ "" ∧
        ∀ d ∈ tool.toList, Text.isAlphanumeric d = true ∨ d = '_') ∧
    cut rule = .ok (ofRule? rule) := by
  refine ⟨fun tool pattern => ?_, cut_eq rule⟩
  rw [ofRule?_eq_some_iff]
  simp only [text, isToolChar, Bool.or_eq_true, beq_iff_eq]

end Clause

end PluginConsent
