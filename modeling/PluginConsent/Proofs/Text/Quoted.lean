import Mathlib.Data.List.Basic
import PluginConsent.Text.Quoted

namespace PluginConsent.Text

/-- The code points with the general category Cc. -/
def controlRanges : Ranges := [(0, 31), (127, 159)]

def isControl (c : Char) : Bool := controlRanges.has c.toNat

/-- The code points with the general category Cf, with those of no width and those that change the
direction of text among them. -/
def formatRanges : Ranges :=
  [(173, 173), (1536, 1541), (1564, 1564), (1757, 1757), (1807, 1807), (2192, 2193), (2274, 2274),
    (6158, 6158), (8203, 8207), (8234, 8238), (8288, 8292), (8294, 8303), (65279, 65279),
    (65529, 65531), (69821, 69821), (69837, 69837), (78896, 78911), (113824, 113827),
    (119155, 119162), (917505, 917505), (917536, 917631)]

def isFormat (c : Char) : Bool := formatRanges.has c.toNat

namespace Ranges

theorem exists_of_has {rs : Ranges} {n : Nat} (h : rs.has n = true) : ∃ r ∈ rs, r.1 ≤ n ∧ n ≤ r.2 := by
  induction rs with
  | nil => cases h
  | cons r rs ih =>
      obtain ⟨lo, hi⟩ := r
      rw [has] at h
      split at h
      · cases h
      · next hlo =>
        split at h
        · next hhi => exact ⟨_, List.mem_cons_self, Nat.not_lt.mp hlo, hhi⟩
        · obtain ⟨r, hr, hn⟩ := ih h
          exact ⟨r, List.mem_cons_of_mem _ hr, hn⟩

def apart (rs rs' : Ranges) : Bool :=
  rs.all fun r => rs'.all fun r' => r.2.blt r'.1 || r'.2.blt r.1

theorem has_eq_false_of_apart {rs rs' : Ranges} {n : Nat} (h : apart rs rs' = true)
    (hn : rs.has n = true) : rs'.has n = false := by
  rw [← Bool.not_eq_true]
  intro hn'
  obtain ⟨r, hr, hlo, hhi⟩ := exists_of_has hn
  obtain ⟨r', hr', hlo', hhi'⟩ := exists_of_has hn'
  have hmeet := List.all_eq_true.mp (List.all_eq_true.mp h r hr) r' hr'
  simp only [Bool.or_eq_true, Nat.blt_eq] at hmeet
  omega

end Ranges

section

variable {c d quote : Char} {n : Nat} {s s' : String}

theorem isControl_of_isPrintable (h : isPrintable c = true) : isControl c = false := by
  have hapart : Ranges.apart printableRanges controlRanges = true := by decide +kernel
  exact Ranges.has_eq_false_of_apart hapart h

theorem isFormat_of_isPrintable (h : isPrintable c = true) : isFormat c = false := by
  have hapart : Ranges.apart printableRanges formatRanges = true := by decide +kernel
  exact Ranges.has_eq_false_of_apart hapart h

def isShownAscii (c : Char) : Bool := 32 ≤ c.toNat && c.toNat ≤ 126

theorem isPrintable_of_ascii (h : isShownAscii c = true) : isPrintable c = true := by
  simp only [isShownAscii, Bool.and_eq_true, decide_eq_true_eq] at h
  rw [isPrintable, printableRanges, Ranges.has, if_neg (Nat.not_lt.mpr h.1), if_pos h.2]

theorem forall_isPrintable_of_ascii {cs : List Char} (h : cs.all isShownAscii = true) :
    ∀ c ∈ cs, isPrintable c = true := fun c hc => isPrintable_of_ascii (List.all_eq_true.mp h c hc)

def Printable (s : String) : Prop := ∀ c ∈ s.toList, isPrintable c = true

theorem printable_of_ascii (h : s.toList.all isShownAscii = true) : Printable s :=
  forall_isPrintable_of_ascii h

theorem Printable.append (h : Printable s) (h' : Printable s') : Printable (s ++ s') := by
  intro c hc
  rw [String.toList_append, List.mem_append] at hc
  exact hc.elim (h c) (h' c)

theorem isPrintable_digitChar (n : Nat) : isPrintable (Nat.digitChar n) = true := by
  have hsmall : ∀ k < 16, isShownAscii (Nat.digitChar k) = true := by decide
  by_cases hn : n < 16
  · exact isPrintable_of_ascii (hsmall n hn)
  · have hstar : Nat.digitChar n = '*' := by
      unfold Nat.digitChar
      simp only [show ∀ k < 16, n ≠ k by omega, Nat.reduceLT, if_false]
    rw [hstar]
    exact isPrintable_of_ascii (by decide)

theorem isPrintable_of_mem_toDigits {base : Nat} (h : c ∈ Nat.toDigits base n) :
    isPrintable c = true := by
  -- Digits are put in front of those that are there, so the claim is on all of them.
  have hcore (fuel n : Nat) (ds : List Char) (hds : ∀ d ∈ ds, isPrintable d = true) :
      ∀ d ∈ Nat.toDigitsCore base fuel n ds, isPrintable d = true := by
    induction fuel generalizing n ds with
    | zero => exact hds
    | succ fuel ih =>
        have hcons : ∀ d ∈ Nat.digitChar (n % base) :: ds, isPrintable d = true :=
          List.forall_mem_cons.mpr ⟨isPrintable_digitChar (n % base), hds⟩
        rw [Nat.toDigitsCore]
        split
        · exact hcons
        · exact ih _ _ hcons
  exact hcore _ _ [] (by simp) c h

theorem printable_toString (n : Nat) : Printable (toString n) := by
  intro c hc
  have hn : (toString n).toList = Nat.toDigits 10 n := String.toList_ofList
  rw [hn] at hc
  exact isPrintable_of_mem_toDigits hc

theorem isPrintable_of_mem_codePointEscape (h : d ∈ codePointEscape c) : isPrintable d = true := by
  have hmarks : ∀ d ∈ ['\\', 'u', '\x7b', '\x7d'], isPrintable d = true :=
    forall_isPrintable_of_ascii (by decide)
  simp only [codePointEscape, List.mem_append, List.mem_cons, List.not_mem_nil, or_false] at h
  rcases h with (rfl | rfl | rfl | h) | rfl
  · exact hmarks _ (by simp)
  · exact hmarks _ (by simp)
  · exact hmarks _ (by simp)
  · exact isPrintable_of_mem_toDigits h
  · exact hmarks _ (by simp)

theorem isPrintable_of_mem_escapeChar (hq : isPrintable quote = true) (h : d ∈ escapeChar quote c) :
    isPrintable d = true := by
  have hletters : ∀ d ∈ ['\\', '0', 't', 'r', 'n'], isPrintable d = true :=
    forall_isPrintable_of_ascii (by decide)
  have hescape {e : Char} (he : e ∈ ['\\', '0', 't', 'r', 'n']) (hd : d ∈ ['\\', e]) :
      isPrintable d = true := by
    rcases List.mem_pair.mp hd with rfl | rfl
    · exact hletters _ (by simp)
    · exact hletters _ he
  unfold escapeChar at h
  split at h
  · exact hescape (by simp) h
  split at h
  · exact hescape (by simp) h
  split at h
  · exact hescape (by simp) h
  split at h
  · exact hescape (by simp) h
  split at h
  · next hc =>
    rcases hc with rfl | rfl
    · exact hescape (by simp) h
    · rcases List.mem_pair.mp h with rfl | rfl
      · exact hletters _ (by simp)
      · exact hq
  split at h
  · next hplain =>
    rw [List.mem_singleton.mp h]
    simp only [isPlain, Bool.and_eq_true] at hplain
    exact hplain.1.1
  · exact isPrintable_of_mem_codePointEscape h

theorem printable_enclosed {cs : List Char} (hq : isPrintable quote = true)
    (h : ∀ c ∈ cs, isPrintable c = true) : Printable (String.ofList (quote :: cs ++ [quote])) := by
  intro c hc
  rw [String.toList_ofList, List.cons_append, List.mem_cons, List.mem_append, List.mem_singleton] at hc
  rcases hc with rfl | hc | rfl
  · exact hq
  · exact h c hc
  · exact hq

theorem printable_quoteString (s : String) : Printable (quoteString s) := by
  have hq : isPrintable '"' = true := isPrintable_of_ascii (by decide)
  refine printable_enclosed hq fun d hd => ?_
  obtain ⟨c, _, hc⟩ := List.mem_flatMap.mp hd
  exact isPrintable_of_mem_escapeChar hq hc

theorem printable_quoteChar (c : Char) : Printable (quoteChar c) := by
  have hq : isPrintable '\'' = true := isPrintable_of_ascii (by decide)
  exact printable_enclosed hq fun d hd => isPrintable_of_mem_escapeChar hq hd

end

end PluginConsent.Text
