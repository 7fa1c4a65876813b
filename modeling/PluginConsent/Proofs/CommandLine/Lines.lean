import PluginConsent.CommandLine.Run
import PluginConsent.Proofs.Rule.Grammar
import PluginConsent.Proofs.Text.Quoted

namespace PluginConsent

namespace Text

/-- The line feeds in a text: the number of its lines, if the last one ends in one too. -/
def breaks (s : String) : Nat := s.toList.count '\n'

@[simp] theorem breaks_append (s s' : String) : breaks (s ++ s') = breaks s + breaks s' := by
  rw [breaks, String.toList_append, List.count_append, ← breaks, ← breaks]

theorem breaks_ofList (cs : List Char) : breaks (String.ofList cs) = cs.count '\n' := by
  rw [breaks, String.toList_ofList]

theorem breaks_join (ss : List String) : breaks (String.join ss) = (ss.map breaks).sum := by
  rw [breaks, String.toList_join, List.count_flatMap]
  rfl

theorem breaks_intercalate {separator : String} (h : breaks separator = 0) (ss : List String) :
    breaks (separator.intercalate ss) = (ss.map breaks).sum := by
  rw [breaks, String.toList_intercalate]
  induction ss with
  | nil => rfl
  | cons s ss ih =>
      cases ss with
      | nil => simp [breaks]
      | cons s' ss =>
          rw [List.map_cons, List.intercalate_cons_of_ne_nil (by simp), List.count_append,
            List.count_append, ih, ← breaks, ← breaks, h, Nat.add_zero, List.map_cons (l := s' :: ss),
            List.sum_cons]

theorem breaks_unlines (ls : List String) : breaks (unlines ls) = ls.length + (ls.map breaks).sum := by
  have hfeed : breaks "\n" = 1 := by decide
  rw [unlines, breaks_join]
  induction ls with
  | nil => rfl
  | cons l ls ih =>
      simp only [List.map_cons, List.sum_cons, breaks_append, hfeed, List.length_cons, ih]
      omega

theorem unlines_append (ls ls' : List String) : unlines (ls ++ ls') = unlines ls ++ unlines ls' := by
  rw [unlines, List.map_append, String.join_append]
  rfl

theorem breaks_unlines_flatMap {α : Type} (xs : List α) (f : α → List String) :
    breaks (unlines (xs.flatMap f)) = (xs.map fun x => breaks (unlines (f x))).sum := by
  induction xs with
  | nil => rfl
  | cons x xs ih =>
      rw [List.flatMap_cons, unlines_append, breaks_append, ih, List.map_cons, List.sum_cons]

theorem sum_breaks_eq_zero_iff {ls : List String} :
    (ls.map breaks).sum = 0 ↔ ∀ l ∈ ls, breaks l = 0 := by
  rw [List.sum_eq_zero_iff, List.forall_mem_map]

theorem breaks_eq_zero_iff {s : String} : breaks s = 0 ↔ '\n' ∉ s.toList := List.count_eq_zero

theorem Printable.breaks_eq_zero {s : String} (h : Printable s) : breaks s = 0 := by
  refine breaks_eq_zero_iff.mpr fun hmem => ?_
  have hfeed : isPrintable '\n' = false := by decide +kernel
  rw [h '\n' hmem] at hfeed
  cases hfeed

end Text

namespace Rule

open Text (Printable isPrintable isControl isFormat isPrintable_of_ascii
  forall_isPrintable_of_ascii printable_of_ascii printable_toString
  printable_quoteChar printable_quoteString isControl_of_isPrintable isFormat_of_isPrintable)

variable {rule : String} {rules : List String} {d : Char}

theorem isPrintable_of_isAlphanum (h : d.isAlphanum = true) : isPrintable d = true := by
  have hall : ∀ n < 128, (Char.ofNat n).isAlphanum = true → Text.isShownAscii (Char.ofNat n) = true := by
    decide +kernel
  have hd := hall d.toNat (Clause.toNat_lt_of_isAlphanum h)
  rw [Char.ofNat_toNat] at hd
  exact isPrintable_of_ascii (hd h)

theorem printable_text {c : Clause} (h : c.Grammatical) : Printable c.text := by
  have hmarks : ∀ d ∈ ['_', '.', '*', ':', '/', '-', ' ', '(', ')'], isPrintable d = true :=
    forall_isPrintable_of_ascii (by decide)
  intro d hd
  simp only [Clause.toList_text, List.mem_append, List.mem_cons, List.not_mem_nil, or_false] at hd
  rcases hd with (hd | rfl | hd) | rfl
  · rcases h.tool_chars d hd with hd | rfl
    · exact isPrintable_of_isAlphanum hd
    · exact hmarks _ (by simp)
  · exact hmarks _ (by simp)
  · rcases h.pattern d hd with hd | hd
    · exact isPrintable_of_isAlphanum hd
    · exact hmarks d (List.mem_append_left ['(', ')'] hd)
  · exact hmarks _ (by simp)

theorem printable_message {fault : Fault} (h : check rule = .error fault) : Printable fault.message := by
  have hverdict := check_iff.mp h
  cases hverdict with
  | tooLong =>
      have hbefore : Printable "rule is " := printable_of_ascii (by decide +kernel)
      have hbetween : Printable " characters long, exceeding the " := printable_of_ascii (by decide +kernel)
      have hafter : Printable " character limit" := printable_of_ascii (by decide +kernel)
      exact (((hbefore.append (printable_toString _)).append hbetween).append
        (printable_toString _)).append hafter
  | nonAscii =>
      have hbefore : Printable "rule contains non-ASCII character " := printable_of_ascii (by decide +kernel)
      have hbetween : Printable " at position " := printable_of_ascii (by decide +kernel)
      exact ((hbefore.append (printable_quoteChar _)).append hbetween).append (printable_toString _)
  | malformed =>
      have hbefore : Printable "rule " := printable_of_ascii (by decide +kernel)
      have hshape : Printable " does not match Tool(pattern); patterns may only contain " :=
        printable_of_ascii (by decide +kernel)
      have hmarks : Printable "letters, digits and _ . * : / - or spaces" :=
        printable_of_ascii (by decide +kernel)
      exact ((hbefore.append (printable_quoteString rule)).append hshape).append hmarks

theorem printable_verdictLine (rule : String) : Printable (verdictLine rule) := by
  rw [verdictLine]
  split
  · next hok =>
    have hword : Printable "ok      " := printable_of_ascii (by decide +kernel)
    obtain ⟨_, c, hc, rfl⟩ := check_ok_iff.mp hok
    exact hword.append (printable_text hc)
  · next fault hfault =>
    have hword : Printable "invalid " := printable_of_ascii (by decide +kernel)
    exact hword.append (printable_message hfault)

theorem breaks_verdictLine (rule : String) : Text.breaks (verdictLine rule) = 0 :=
  (printable_verdictLine rule).breaks_eq_zero

/-- What is printed for a rule: one of two words, by the verdict on it, and nothing that does not show. -/
structure Reports (rule line : String) : Prop where
  accepted : check rule = .ok () → ∃ rest, line = "ok" ++ rest
  refused : ∀ fault, check rule = .error fault → ∃ rest, line = "invalid" ++ rest
  visible : ∀ c ∈ line.toList, isPrintable c = true ∧ isControl c = false ∧ isFormat c = false

theorem reports_verdictLine (rule : String) : Reports rule (verdictLine rule) where
  accepted hok := ⟨"      " ++ rule, by rw [verdictLine, hok, ← String.append_assoc]; rfl⟩
  refused fault hfault := ⟨" " ++ fault.message, by rw [verdictLine, hfault, ← String.append_assoc]; rfl⟩
  visible c hc :=
    have hshown := printable_verdictLine rule c hc
    ⟨hshown, isControl_of_isPrintable hshown, isFormat_of_isPrintable hshown⟩

theorem firstFault?_eq_none_iff : firstFault? rules = none ↔ ∀ rule ∈ rules, check rule = .ok () := by
  induction rules with
  | nil => simp [firstFault?]
  | cons rule rules ih =>
      rw [firstFault?, List.forall_mem_cons]
      split
      · next hok => simp [hok, ih]
      · next hfault => simp [hfault]

end Rule

namespace CommandLine

open Text (breaks)

end CommandLine

end PluginConsent
