import Mathlib
import PluginConsent.Rule.Clause
import PluginConsent.Rule.Grammar

namespace PluginConsent

namespace Clause

/-- A letter, then letters, digits and underscores; and a pattern of at least one character. -/
structure Grammatical (c : Clause) : Prop where
  tool : ∃ first rest, c.tool.toList = first :: rest ∧ first.isAlpha = true ∧
    ∀ d ∈ rest, d.isAlphanum = true ∨ d = '_'
  nonempty : c.pattern ≠ ""
  pattern : ∀ d ∈ c.pattern.toList, d.isAlphanum = true ∨ d ∈ ['_', '.', '*', ':', '/', '-', ' ']

theorem toList_text (c : Clause) : c.text.toList = c.tool.toList ++ '(' :: c.pattern.toList ++ [')'] := by
  simp [text]

theorem ofRule?_text {c : Clause} (hne : c.tool ≠ "") (htool : ∀ d ∈ c.tool.toList, isToolChar d = true) :
    ofRule? c.text = some c := by
  have hbefore : ∀ d ∈ c.tool.toList, (d != '(') = true := by
    intro d hd
    rw [bne_iff_ne]
    rintro rfl
    exact absurd (htool _ hd) (by decide)
  have htext : c.text.toList = c.tool.toList ++ '(' :: (c.pattern.toList ++ [')']) := by simp [text]
  have htake : c.text.toList.takeWhile (· != '(') = c.tool.toList := by
    rw [htext, List.takeWhile_append_of_pos hbefore]
    simp
  have hdrop : c.text.toList.dropWhile (· != '(') = '(' :: (c.pattern.toList ++ [')']) := by
    rw [htext, List.dropWhile_append_of_pos hbefore]
    simp
  rw [ofRule?, htake, hdrop]
  have hlist : c.tool.toList ≠ [] := fun h => hne (String.toList_eq_nil_iff.mp h)
  simpa [hlist] using htool

section

variable {c : Clause} {d : Char}

theorem toNat_lt_of_isAlphanum (h : d.isAlphanum = true) : d.toNat < 128 := by
  simp only [Char.isAlphanum, Char.isAlpha, Char.isUpper, Char.isLower, Char.isDigit,
    Bool.or_eq_true, Bool.and_eq_true, decide_eq_true_eq, UInt32.le_iff_toNat_le, ge_iff_le] at h
  have hval : d.toNat = d.val.toNat := rfl
  have hupper : 'Z'.val.toNat = 90 := rfl
  have hlower : 'z'.val.toNat = 122 := rfl
  have hdigit : '9'.val.toNat = 57 := rfl
  omega

theorem isToolChar_of_isAlphanum (h : d.isAlphanum = true) : isToolChar d = true := by
  have hall : ∀ n < 128, (Char.ofNat n).isAlphanum = true → isToolChar (Char.ofNat n) = true := by
    decide +kernel
  have hd := hall d.toNat (toNat_lt_of_isAlphanum h)
  rw [Char.ofNat_toNat] at hd
  exact hd h

theorem Grammatical.tool_chars (h : c.Grammatical) :
    ∀ d ∈ c.tool.toList, d.isAlphanum = true ∨ d = '_' := by
  obtain ⟨first, rest, htool, hfirst, hrest⟩ := h.tool
  rw [htool]
  refine List.forall_mem_cons.mpr ⟨.inl ?_, hrest⟩
  rw [Char.isAlphanum, hfirst, Bool.true_or]

theorem Grammatical.ofRule?_text (h : c.Grammatical) : ofRule? c.text = some c := by
  refine Clause.ofRule?_text (fun hempty => ?_) fun d hd => ?_
  · obtain ⟨first, rest, htool, _⟩ := h.tool
    rw [hempty] at htool
    cases htool
  · rcases h.tool_chars d hd with hd | rfl
    · exact isToolChar_of_isAlphanum hd
    · decide

theorem Grammatical.ascii (h : c.Grammatical) : ∀ d ∈ c.text.toList, d.toNat < 128 := by
  have hmarks : ∀ d ∈ ['_', '.', '*', ':', '/', '-', ' ', '(', ')'], d.toNat < 128 := by simp
  intro d hd
  simp only [toList_text, List.mem_append, List.mem_cons, List.not_mem_nil, or_false] at hd
  rcases hd with (hd | rfl | hd) | rfl
  · rcases h.tool_chars d hd with hd | rfl
    · exact toNat_lt_of_isAlphanum hd
    · decide
  · decide
  · rcases h.pattern d hd with hd | hd
    · exact toNat_lt_of_isAlphanum hd
    · exact hmarks d (List.mem_append_left ['(', ')'] hd)
  · decide

end

end Clause

namespace Rule

def FirstForeign (rule : String) (position : Nat) (c : Char) : Prop :=
  ∃ before after, rule.toList = before ++ c :: after ∧ before.length = position ∧ 128 ≤ c.toNat ∧
    ∀ d ∈ before, d.toNat < 128

section

variable {c d : Char} {cs : List Char} {rule : String}

theorem isLetter_eq (c : Char) : isLetter c = c.isAlpha := by
  have hupper : (decide ('A' ≤ c) && decide (c ≤ 'Z')) = c.isUpper := (Bool.decide_and _ _).symm
  have hlower : (decide ('a' ≤ c) && decide (c ≤ 'z')) = c.isLower := rfl
  rw [isLetter, hupper, hlower, Bool.or_comm, Char.isAlpha]

theorem isWordChar_iff : isWordChar c = true ↔ c.isAlphanum = true ∨ c = '_' := by
  have hdigit : (decide ('0' ≤ c) && decide (c ≤ '9')) = c.isDigit := rfl
  rw [isWordChar, isLetter_eq, hdigit, ← Char.isAlphanum, Bool.or_eq_true, beq_iff_eq]

theorem isPatternChar_iff :
    isPatternChar c = true ↔ c.isAlphanum = true ∨ c ∈ ['_', '.', '*', ':', '/', '-', ' '] := by
  simp only [isPatternChar, Bool.or_eq_true, isWordChar_iff, beq_iff_eq, List.mem_cons,
    List.not_mem_nil, or_false, or_assoc]

theorem isPattern_iff : isPattern cs = true ↔
    cs ≠ [] ∧ ∀ d ∈ cs, d.isAlphanum = true ∨ d ∈ ['_', '.', '*', ':', '/', '-', ' '] := by
  simp only [isPattern, Bool.and_eq_true, Bool.not_eq_true', List.isEmpty_eq_false_iff,
    List.all_eq_true, isPatternChar_iff]

theorem isArgument_iff : isArgument cs = true ↔
    ∃ pattern, cs = '(' :: pattern ++ [')'] ∧ isPattern pattern = true := by
  constructor
  · intro h
    unfold isArgument at h
    split at h
    · next body =>
      rw [Bool.and_eq_true, beq_iff_eq] at h
      obtain ⟨pattern, rfl⟩ := List.getLast?_eq_some_iff.mp h.1
      exact ⟨pattern, rfl, by simpa using h.2⟩
    · cases h
  · rintro ⟨pattern, rfl, hp⟩
    simp [isArgument, hp]

/-- The tool ends where its characters do, since a parenthesis is none of them. -/
theorem isShaped_iff : isShaped rule.toList = true ↔ ∃ c : Clause, c.Grammatical ∧ c.text = rule := by
  constructor
  · intro h
    cases hcs : rule.toList with
    | nil => rw [hcs] at h; cases h
    | cons first cs =>
        rw [hcs, isShaped, Bool.and_eq_true, isLetter_eq, isArgument_iff] at h
        obtain ⟨hfirst, pattern, hdrop, hpattern⟩ := h
        obtain ⟨hne, hchars⟩ := isPattern_iff.mp hpattern
        have htake : ∀ d ∈ cs.takeWhile isWordChar, d.isAlphanum = true ∨ d = '_' := fun d hd =>
          isWordChar_iff.mp (List.mem_takeWhile_imp hd)
        refine ⟨⟨String.ofList (first :: cs.takeWhile isWordChar), String.ofList pattern⟩,
          ⟨⟨first, _, String.toList_ofList, hfirst, htake⟩, ?_, ?_⟩, ?_⟩
        · simpa using hne
        · simpa using hchars
        · refine String.toList_inj.mp ?_
          rw [Clause.toList_text, hcs, String.toList_ofList, String.toList_ofList, List.append_assoc,
            ← hdrop, List.cons_append, List.takeWhile_append_dropWhile]
  · rintro ⟨c, ⟨⟨first, rest, htool, hfirst, hrest⟩, hne, hchars⟩, rfl⟩
    have hword : ∀ d ∈ rest, isWordChar d = true := fun d hd => isWordChar_iff.mpr (hrest d hd)
    have hparen : isWordChar '(' = false := by decide
    rw [Clause.toList_text, htool, List.cons_append, List.cons_append, List.append_assoc, isShaped,
      List.dropWhile_append_of_pos hword, Bool.and_eq_true, isLetter_eq]
    refine ⟨hfirst, isArgument_iff.mpr ⟨c.pattern.toList, ?_, isPattern_iff.mpr ⟨?_, hchars⟩⟩⟩
    · simp [hparen]
    · simpa using hne

theorem isAscii_iff : isAscii c = true ↔ c.toNat < 128 := decide_eq_true_iff

theorem forall_zipIdx_iff {P : Char → Prop} : (∀ p ∈ cs.zipIdx, P p.1) ↔ ∀ d ∈ cs, P d := by
  rw [← List.forall_mem_map, List.zipIdx_map_fst]

theorem firstNonAscii?_eq_some_iff {position : Nat} :
    firstNonAscii? rule = some (c, position) ↔ FirstForeign rule position c := by
  rw [firstNonAscii?, List.find?_eq_some_iff_append]
  simp only [Bool.not_not, isAscii_iff, Bool.not_eq_true', ← Bool.not_eq_true, Nat.not_lt]
  constructor
  · rintro ⟨hc, _, _, hzip, hbefore⟩
    obtain ⟨before, _, hrule, rfl, hrest⟩ := List.zipIdx_eq_append_iff.mp hzip
    obtain ⟨c', after, rfl, hhead, _⟩ := List.zipIdx_eq_cons_iff.mp hrest.symm
    obtain ⟨rfl, rfl⟩ := Prod.mk.inj hhead
    exact ⟨before, after, hrule, (Nat.zero_add _).symm, hc, forall_zipIdx_iff.mp hbefore⟩
  · rintro ⟨before, after, hrule, rfl, hc, hbefore⟩
    refine ⟨hc, before.zipIdx, after.zipIdx (before.length + 1), ?_, forall_zipIdx_iff.mpr hbefore⟩
    rw [hrule, List.zipIdx_append, List.zipIdx_cons, Nat.zero_add]

theorem firstNonAscii?_eq_none_iff :
    firstNonAscii? rule = none ↔ ∀ d ∈ rule.toList, d.toNat < 128 := by
  rw [firstNonAscii?, List.find?_eq_none]
  simp only [Bool.not_eq_true', Bool.not_eq_false, isAscii_iff]
  exact forall_zipIdx_iff (P := fun d => d.toNat < 128)

theorem isShaped_eq_false_iff : isShaped rule.toList = false ↔
    ∀ c : Clause, c.Grammatical → c.text ≠ rule := by
  rw [← Bool.not_eq_true, isShaped_iff]
  simp

/-- The four verdicts, of which exactly one is given. -/
inductive Verdict (rule : String) : Except Fault Unit → Prop
  | tooLong (h : 500 < rule.length) : Verdict rule (.error (.tooLong rule.length))
  | nonAscii {position : Nat} {c : Char} (hlen : rule.length ≤ 500)
      (h : FirstForeign rule position c) : Verdict rule (.error (.nonAscii position c))
  | malformed (hlen : rule.length ≤ 500) (hascii : ∀ d ∈ rule.toList, d.toNat < 128)
      (h : ∀ c : Clause, c.Grammatical → c.text ≠ rule) : Verdict rule (.error (.malformed rule))
  | accepted {c : Clause} (hlen : rule.length ≤ 500) (hc : c.Grammatical) (h : c.text = rule) :
      Verdict rule (.ok ())

theorem verdict_check (rule : String) : Verdict rule (check rule) := by
  rw [check]
  split
  · next hlong => exact .tooLong hlong
  · next hlen =>
    have hlen : rule.length ≤ 500 := Nat.not_lt.mp hlen
    split
    · next c position hforeign => exact .nonAscii hlen (firstNonAscii?_eq_some_iff.mp hforeign)
    · next hascii =>
      have hascii := firstNonAscii?_eq_none_iff.mp hascii
      split
      · next hshape =>
        obtain ⟨c, hc, htext⟩ := isShaped_iff.mp hshape
        exact .accepted hlen hc htext
      · next hshape =>
        exact .malformed hlen hascii (isShaped_eq_false_iff.mp (eq_false_of_ne_true hshape))

theorem Verdict.check_eq {v : Except Fault Unit} (h : Verdict rule v) : check rule = v := by
  have hshort (hlen : rule.length ≤ 500) : ¬ maxLength < rule.length := Nat.not_lt.mpr hlen
  cases h with
  | tooLong h => exact if_pos h
  | nonAscii hlen h => rw [check, if_neg (hshort hlen), firstNonAscii?_eq_some_iff.mpr h]
  | malformed hlen hascii h =>
      rw [check, if_neg (hshort hlen), firstNonAscii?_eq_none_iff.mpr hascii,
        isShaped_eq_false_iff.mpr h]
      rfl
  | accepted hlen hc h =>
      have hascii := hc.ascii
      rw [h] at hascii
      rw [check, if_neg (hshort hlen), firstNonAscii?_eq_none_iff.mpr hascii,
        isShaped_iff.mpr ⟨_, hc, h⟩]
      rfl

theorem check_iff {v : Except Fault Unit} : check rule = v ↔ Verdict rule v :=
  ⟨fun h => h ▸ verdict_check rule, Verdict.check_eq⟩

theorem check_ok_iff : check rule = .ok () ↔
    rule.length ≤ 500 ∧ ∃ c : Clause, c.Grammatical ∧ c.text = rule := by
  rw [check_iff]
  constructor
  · rintro ⟨⟩
    next c hlen hc h => exact ⟨hlen, c, hc, h⟩
  · rintro ⟨hlen, c, hc, h⟩
    exact .accepted hlen hc h

theorem exists_firstForeign (h : ∃ d ∈ rule.toList, 128 ≤ d.toNat) :
    ∃ position c, FirstForeign rule position c := by
  obtain ⟨d, hd, hge⟩ := h
  cases hfirst : firstNonAscii? rule with
  | none => exact absurd (firstNonAscii?_eq_none_iff.mp hfirst d hd) (Nat.not_lt.mpr hge)
  | some p => exact ⟨p.2, p.1, firstNonAscii?_eq_some_iff.mp hfirst⟩

end

/-- A rule may be stored if and only if it is a clause of the grammar and not too long, and it is then taken
apart into that clause. Otherwise it is too long; or some first character of it is not ASCII; or, if neither
is so, its shape is to blame. -/
theorem check_decides_grammar (rule : String) :
    (check rule = .ok () ↔ rule.length ≤ 500 ∧ ∃ c : Clause, c.Grammatical ∧ c.text = rule) ∧
    (∀ v, check rule = v ↔ Verdict rule v) ∧
    ((∃ d ∈ rule.toList, 128 ≤ d.toNat) → ∃ position c, FirstForeign rule position c) ∧
    ∀ c : Clause, c.Grammatical → c.text = rule → Clause.ofRule? rule = some c :=
  ⟨check_ok_iff, fun _ => check_iff, exists_firstForeign, fun _ hc h => h ▸ hc.ofRule?_text⟩

theorem check_decides_grammar_lookalike :
    Clause.Grammatical ⟨"Bash", "git:*"⟩ ∧ check "Bash(git:*)" = .ok () ∧
    Clause.ofRule? "Bash(git:*)" = some ⟨"Bash", "git:*"⟩ ∧
    (∃ d ∈ "B\u0430sh(git:*)".toList, 128 ≤ d.toNat) ∧
    check "B\u0430sh(git:*)" = .error (.nonAscii 1 '\u0430') := by
  have hpattern : "git:*".toList = ['g', 'i', 't', ':', '*'] := by decide
  have hc : Clause.Grammatical ⟨"Bash", "git:*"⟩ :=
    ⟨⟨'B', ['a', 's', 'h'], by decide, by decide, by simp⟩, by decide, by simp [hpattern]⟩
  have hforeign : FirstForeign "B\u0430sh(git:*)" 1 '\u0430' :=
    ⟨['B'], ['s', 'h', '(', 'g', 'i', 't', ':', '*', ')'], by decide, rfl, by decide, by simp⟩
  obtain ⟨hok, _, _, hparts⟩ := check_decides_grammar "Bash(git:*)"
  obtain ⟨_, hverdict, _, _⟩ := check_decides_grammar "B\u0430sh(git:*)"
  exact ⟨hc, hok.mpr ⟨by decide, _, hc, by decide⟩, hparts _ hc (by decide),
    ⟨'\u0430', by decide, by decide⟩, (hverdict _).mpr (.nonAscii (by decide) hforeign)⟩

end Rule

end PluginConsent
