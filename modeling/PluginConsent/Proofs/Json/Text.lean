import PluginConsent.Json.Printer
import PluginConsent.Json.Reader

namespace PluginConsent.Json

mutual

theorem write_append (l : Layout) (level : Nat) (out : String) :
    (v : Json) → write l level out v = out ++ write l level "" v
  | .null => by simp [write]
  | .boolean _ => by simp [write]
  | .number _ => by simp [write]
  | .string _ => by simp [write]
  | .array [] => by simp [write]
  | .array (v :: vs) => by
      simp only [write]
      rw [write_append l (level + 1) _ v, write_append l (level + 1) ("" ++ _ ++ _) v,
        writeItems_append l (level + 1) _ vs, writeItems_append l (level + 1) ("" ++ _ ++ _ ++ _) vs]
      simp only [String.append_assoc, String.empty_append]
  | .object [] => by simp [write]
  | .object ((k, v) :: fs) => by
      simp only [write]
      rw [write_append l (level + 1) _ v, write_append l (level + 1) ("" ++ _ ++ _ ++ _ ++ _) v,
        writeFields_append l (level + 1) _ fs,
        writeFields_append l (level + 1) ("" ++ _ ++ _ ++ _ ++ _ ++ _) fs]
      simp only [String.append_assoc, String.empty_append]

theorem writeItems_append (l : Layout) (level : Nat) (out : String) :
    (vs : List Json) → writeItems l level out vs = out ++ writeItems l level "" vs
  | [] => by simp [writeItems]
  | v :: vs => by
      simp only [writeItems]
      rw [write_append l level _ v, write_append l level ("" ++ _ ++ _) v,
        writeItems_append l level _ vs, writeItems_append l level ("" ++ _ ++ _ ++ _) vs]
      simp only [String.append_assoc, String.empty_append]

theorem writeFields_append (l : Layout) (level : Nat) (out : String) :
    (fs : List (String × Json)) → writeFields l level out fs = out ++ writeFields l level "" fs
  | [] => by simp [writeFields]
  | (k, v) :: fs => by
      simp only [writeFields]
      rw [write_append l level _ v, write_append l level ("" ++ _ ++ _ ++ _ ++ _) v,
        writeFields_append l level _ fs, writeFields_append l level ("" ++ _ ++ _ ++ _ ++ _ ++ _) fs]
      simp only [String.append_assoc, String.empty_append]

end

theorem head_pretty_object (fields : Object) :
    (pretty (.object fields)).toList.head? = some '\x7b' := by
  cases fields with
  | nil => rfl
  | cons f fs =>
      simp only [pretty, write]
      rw [writeFields_append, write_append]
      simp

def IsPlain (c : Char) : Prop := c ≠ '"' ∧ c ≠ '\\' ∧ ¬ c < ' '

instance (c : Char) : Decidable (IsPlain c) := inferInstanceAs (Decidable (_ ∧ _))

theorem escapeInString_of_isPlain {c : Char} (h : IsPlain c) : escapeInString c = [c] := by
  obtain ⟨hquote, hback, hlow⟩ := h
  have hne (c' : Char) (h' : c' < ' ') : c ≠ c' := by
    rintro rfl
    exact hlow h'
  simp [escapeInString, hquote, hback, hlow, hne '\x08' (by decide),
    hne '\x0c' (by decide), hne '\n' (by decide), hne '\r' (by decide),
    hne '\t' (by decide)]

theorem quote_of_isPlain {s : String} (h : ∀ c ∈ s.toList, IsPlain c) :
    quote s = "\"" ++ s ++ "\"" := by
  have hmap : s.toList.flatMap escapeInString = s.toList := by
    generalize s.toList = cs at h
    induction cs with
    | nil => rfl
    | cons c cs ih =>
        rw [List.flatMap_cons, escapeInString_of_isPlain (h c (by simp)),
          ih fun c' hc => h c' (by simp [hc])]
        rfl
  have hquote : String.ofList ['"'] = "\"" := rfl
  have happend : String.ofList (['"'] ++ s.toList) = String.ofList ['"'] ++ String.ofList s.toList :=
    String.ofList_append
  rw [quote, hmap, String.ofList_append, ← List.singleton_append, happend, String.ofList_toList,
    hquote]

theorem pretty_member (k s : String) (rest : Object) :
    pretty (.object ((k, .string s) :: rest)) =
      "\x7b\n  " ++ quote k ++ ": " ++ quote s ++ writeFields ⟨some 2⟩ 1 "" rest ++ "\n\x7d" := by
  have hline : Layout.line ⟨some 2⟩ 1 = "\n  " := by decide
  have hend : Layout.line ⟨some 2⟩ 0 = "\n" := by decide
  have hcolon : Layout.colon ⟨some 2⟩ = ": " := rfl
  have hstart : "\x7b\n  " = "\x7b" ++ "\n  " := rfl
  have hclose : "\n\x7d" = "\n" ++ "\x7d" := rfl
  simp only [pretty, write]
  rw [writeFields_append, hline, hend, hcolon, hstart, hclose]
  simp only [String.append_assoc, String.empty_append]

namespace Token

theorem hexValue?_hexDigit {n : Nat} (h : n < 16) : hexValue? (hexDigit n) = some n := by
  revert n
  decide

theorem foldlM_feed?_escape (done : List Token) (text : List Char) (c : Char) :
    (escapeInString c).foldlM feed? ⟨done, .quoted text⟩ = some ⟨done, .quoted (c :: text)⟩ := by
  unfold escapeInString
  split
  · next h => rcases h with rfl | rfl <;> rfl
  next hmark =>
  split
  · next h => rw [h]; rfl
  split
  · next h => rw [h]; rfl
  split
  · next h => rw [h]; rfl
  split
  · next h => rw [h]; rfl
  split
  · next h => rw [h]; rfl
  split
  · next hlow =>
    have hn : c.toNat < 32 := hlow
    have hvalue : 16 * (c.toNat / 16) + c.toNat % 16 = c.toNat := Nat.div_add_mod _ _
    have hunit : unit? text none c.toNat = some (.quoted (c :: text)) := by
      have hhigh : isHighSurrogate c.toNat = false := by simp [isHighSurrogate]; omega
      have hlow : isLowSurrogate c.toNat = false := by simp [isLowSurrogate]; omega
      simp [unit?, hhigh, hlow, Char.ofNat_toNat]
    have hzero : hexValue? '0' = some 0 := rfl
    simp [feed?, hzero, hexValue?_hexDigit (show c.toNat / 16 < 16 by omega),
      hexValue?_hexDigit (show c.toNat % 16 < 16 by omega), hvalue, hunit]
  · next hlow =>
    rw [not_or] at hmark
    simp [feed?, hmark, hlow]

theorem foldlM_feed?_escapes (done : List Token) (text cs : List Char) :
    (cs.flatMap escapeInString).foldlM feed? ⟨done, .quoted text⟩ =
      some ⟨done, .quoted (cs.reverse ++ text)⟩ := by
  induction cs generalizing text with
  | nil => rfl
  | cons c cs ih =>
      rw [List.flatMap_cons, List.foldlM_append, foldlM_feed?_escape]
      simpa using ih (c :: text)

theorem foldlM_feed?_quote (s : String) (done : List Token) :
    (quote s).toList.foldlM feed? ⟨done, .between⟩ = some ⟨.string s :: done, .between⟩ := by
  have hopen : feed? ⟨done, .between⟩ '"' = some ⟨done, .quoted []⟩ := by
    simp [feed?, between?, isSpace]
  have hclose : feed? ⟨done, .quoted s.toList.reverse⟩ '"' = some ⟨.string s :: done, .between⟩ := by
    simp [feed?]
  rw [quote, String.toList_ofList, List.cons_append, List.foldlM_cons, hopen]
  simp [foldlM_feed?_escapes, hclose]

theorem finish?_feed?_newline {r : Reader} {ts : List Token} (h : finish? r = some ts) :
    (feed? r '\n').bind finish? = some ts := by
  obtain ⟨done, place⟩ := r
  cases place with
  | between => simpa [feed?, between?, isSpace, finish?] using h
  | word text =>
      simp only [finish?, Option.map_eq_some_iff] at h
      obtain ⟨t, ht, rfl⟩ := h
      simp [feed?, between?, isSpace, finish?, ht]
  | quoted => cases h
  | escape => cases h
  | hex => cases h
  | pair => cases h
  | pairEscape => cases h

theorem ofChars?_newline {cs : List Char} {ts : List Token} (h : ofChars? cs = some ts) :
    ofChars? (cs ++ ['\n']) = some ts := by
  rw [ofChars?] at h ⊢
  obtain ⟨r, hr, hf⟩ := Option.bind_eq_some_iff.mp h
  rw [List.foldlM_append, hr]
  simpa using finish?_feed?_newline hf

end Token

theorem ofString?_newline {s : String} {v : Json} (h : ofString? s = some v) :
    ofString? (s ++ "\n") = some v := by
  rw [ofString?] at h ⊢
  obtain ⟨ts, ht, hv⟩ := Option.bind_eq_some_iff.mp h
  have hnl : "\n".toList = ['\n'] := rfl
  rw [String.toList_append, hnl, Token.ofChars?_newline ht]
  exact hv

theorem ofString?_pretty_member {k s : String} {rest : Object} {ts : List Token} {v : Json}
    (hts : ((writeFields ⟨some 2⟩ 1 "" rest ++ "\n\x7d").toList.foldlM Token.feed?
      ⟨[.string s, .colon, .string k, .openBrace], .between⟩).bind Token.finish? = some ts)
    (hv : ofTokens? ts = some v) :
    ofString? (pretty (.object ((k, .string s) :: rest))) = some v := by
  have hstart : "\x7b\n  ".toList.foldlM Token.feed? ⟨[], .between⟩ =
      some ⟨[.openBrace], .between⟩ := rfl
  have hcolon : ": ".toList.foldlM Token.feed? ⟨[.string k, .openBrace], .between⟩ =
      some ⟨[.colon, .string k, .openBrace], .between⟩ := rfl
  have htokens : Token.ofChars? (pretty (.object ((k, .string s) :: rest))).toList = some ts := by
    simp only [pretty_member, Token.ofChars?, String.toList_append, List.foldlM_append, hstart,
      Option.bind_eq_bind, Option.bind_some, Token.foldlM_feed?_quote, hcolon] at hts ⊢
    exact hts
  rw [ofString?, htokens]
  exact hv

end PluginConsent.Json
