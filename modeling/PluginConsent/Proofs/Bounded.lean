import PluginConsent.Proofs.Manifest
import PluginConsent.Proofs.Settings.Store
import PluginConsent.Proofs.Text.Quoted

namespace PluginConsent

section

variable {limit : Nat} {content : ByteArray}

theorem readBounded_of_long (h : limit < content.size) : readBounded limit content =
    if (content.extract 0 (limit + 1)).IsValidUTF8 then .ok none else .error .notUtf8 := by
  have hsize : (content.extract 0 (limit + 1)).size = limit + 1 := by
    rw [ByteArray.size_extract]
    omega
  by_cases hvalid : (content.extract 0 (limit + 1)).IsValidUTF8
  · have hread : String.fromUTF8? (content.extract 0 (limit + 1)) = some (String.fromUTF8 _ hvalid) :=
      dif_pos hvalid
    have hlong : limit < (String.fromUTF8 _ hvalid).utf8ByteSize := Nat.le_of_eq hsize.symm
    rw [readBounded, hread, if_pos hvalid]
    exact congrArg Except.ok (if_pos hlong)
  · have hread : String.fromUTF8? (content.extract 0 (limit + 1)) = none := dif_neg hvalid
    rw [readBounded, hread, if_neg hvalid]

/-- A text that is too long is no error if one byte more than the limit ends behind one of its characters. -/
theorem readBounded_toUTF8_of_long {text : String} (h : limit < text.toUTF8.size) :
    readBounded limit text.toUTF8 =
      if String.Pos.Raw.IsValid text ⟨limit + 1⟩ then .ok none else .error .notUtf8 := by
  have hvalid : String.Pos.Raw.IsValid text ⟨limit + 1⟩ ↔
      (text.toUTF8.extract 0 (limit + 1)).IsValidUTF8 := by
    rw [String.Pos.Raw.isValid_iff_isValidUTF8_extract_zero]
    exact and_iff_right h
  rw [readBounded_of_long h]
  simp only [hvalid]

end

namespace Json

namespace Token

variable {c d : Char} {cs : List Char} {r r' : Reader}

theorem mark?_blank (h : Text.isBlank c = true) : mark? c = none := by
  unfold mark?
  split
  case h_7 => rfl
  all_goals exact absurd h (by decide)

theorem word?_blank (h : Text.isBlank c = true) (cs : List Char) : word? (c :: cs) = none := by
  have hne (d : Char) (hd : Text.isBlank d = false) : c ≠ d := by
    rintro rfl
    exact Bool.false_ne_true (hd.symm.trans h)
  have hdigit : Number.isDigit c = false := by
    have hdigits : Text.Ranges.has [(48, 57)] c.toNat = false :=
      Text.Ranges.has_eq_false_of_apart (by decide) h
    rw [← Bool.not_eq_true, Number.isDigit, Bool.and_eq_true, decide_eq_true_eq, decide_eq_true_eq]
    rintro ⟨hlo, hhi⟩
    have hfrom : 48 ≤ c.toNat := hlo
    have hto : c.toNat ≤ 57 := hhi
    rw [Text.Ranges.has, if_neg (Nat.not_lt.mpr hfrom), if_pos hto] at hdigits
    cases hdigits
  have hliteral : Number.Literal.ofChars? (c :: cs) = none := by
    unfold Number.Literal.ofChars?
    split
    · next hminus => exact absurd (List.cons.inj hminus).1 (hne '-' (by decide))
    · simp [Number.readUnsigned?, hdigit]
  simp [word?, Number.ofChars?, hliteral, hne 'n' (by decide), hne 't' (by decide), hne 'f' (by decide)]

structure Idle (r : Reader) : Prop where
  done : r.done = []
  place : r.place = .between ∨ ∃ cs c, r.place = .word (cs ++ [c]) ∧ Text.isBlank c = true

theorem Idle.feed? (h : Idle r) (hd : Text.isBlank d = true) (hr : Token.feed? r d = some r') : Idle r' := by
  obtain ⟨done, place⟩ := r
  obtain ⟨hdone, hplace⟩ := h
  cases hdone
  have hquote : d ≠ '"' := by
    rintro rfl
    exact absurd hd (by decide)
  rcases hplace with hplace | ⟨cs, c, hplace, hc⟩
  · cases hplace
    simp only [Token.feed?, between?, hquote, mark?_blank hd, if_false] at hr
    split at hr
    · cases hr
      exact ⟨rfl, .inl rfl⟩
    · cases hr
      exact ⟨rfl, .inr ⟨[], d, rfl, hd⟩⟩
  · cases hplace
    have hword : word? (cs ++ [c]).reverse = none := by
      rw [List.reverse_concat]
      exact word?_blank hc _
    rw [Token.feed?] at hr
    dsimp only at hr
    split at hr
    · rw [hword] at hr
      cases hr
    · cases hr
      exact ⟨rfl, .inr ⟨d :: cs, c, rfl, hc⟩⟩

theorem Idle.foldlM (h : Idle r) (hcs : ∀ c ∈ cs, Text.isBlank c = true)
    (hr : cs.foldlM Token.feed? r = some r') : Idle r' := by
  induction cs generalizing r with
  | nil =>
      cases hr
      exact h
  | cons c cs ih =>
      obtain ⟨next, hnext, hr⟩ := Option.bind_eq_some_iff.mp hr
      obtain ⟨hc, hcs⟩ := List.forall_mem_cons.mp hcs
      exact ih (h.feed? hc hnext) hcs hr

theorem ofChars?_blank {ts : List Token} (hcs : ∀ c ∈ cs, Text.isBlank c = true)
    (h : ofChars? cs = some ts) : ts = [] := by
  obtain ⟨⟨done, place⟩, hr, hfinish⟩ := Option.bind_eq_some_iff.mp h
  have hidle : Idle ⟨[], .between⟩ := ⟨rfl, .inl rfl⟩
  obtain ⟨hdone, hplace⟩ := hidle.foldlM hcs hr
  cases hdone
  rcases hplace with hplace | ⟨cs, c, hplace, hc⟩
  · cases hplace
    exact (Option.some.inj hfinish).symm
  · cases hplace
    simp [finish?, word?_blank hc] at hfinish

end Token

theorem ofString?_blank {s : String} (h : s.toList.all Text.isBlank = true) : ofString? s = none := by
  rw [ofString?]
  cases hts : Token.ofChars? s.toList with
  | none => rfl
  | some ts =>
      rw [Token.ofChars?_blank (List.all_eq_true.mp h) hts]
      rfl

end Json

/-- A content is, as a whole, the text of an object and no longer than allowed. -/
def HoldsObject (limit : Nat) (content : ByteArray) (fields : Json.Object) : Prop :=
  content.size ≤ limit ∧ ∃ text, content = text.toUTF8 ∧ Json.ofString? text = some (.object fields)

namespace Document

variable {d : Document} {content : ByteArray}

theorem ofText_eq (text : String) : ofText text = ((Json.ofString? text).bind Json.object?).getD [] := by
  rw [ofText]
  split
  · next hblank => rw [Json.ofString?_blank hblank]; rfl
  · rfl

theorem ofText_eq_iff {text : String} (hd : d ≠ []) :
    ofText text = d ↔ Json.ofString? text = some (.object d) := by
  rw [ofText_eq]
  constructor
  · intro h
    cases hobject : (Json.ofString? text).bind Json.object? with
    | none =>
        rw [hobject] at h
        exact absurd h.symm hd
    | some fields =>
        rw [hobject] at h
        obtain ⟨v, hv, hfields⟩ := Option.bind_eq_some_iff.mp hobject
        rw [hv, Json.object?_eq_some_iff.mp hfields]
        exact congrArg (fun fields => some (Json.object fields)) h
  · intro h
    rw [h]
    rfl

theorem ofContent_eq_iff (hd : d ≠ []) : ofContent content = d ↔ HoldsObject maxBytes content d := by
  rw [ofContent]
  constructor
  · intro h
    split at h
    · next text hread =>
      obtain ⟨rfl, hle⟩ := readBounded_ok_iff.mp hread
      exact ⟨hle, text, rfl, (ofText_eq_iff hd).mp h⟩
    · exact absurd h.symm hd
  · rintro ⟨hle, text, rfl, hjson⟩
    rw [readBounded_ok_iff.mpr ⟨rfl, hle⟩]
    exact (ofText_eq_iff hd).mpr hjson

theorem read?_eq_some_iff {t : Tree} {who : Account} {cwd : WorkingDirectory} {path : String}
    {mode : Nat} (h : t.status cwd path = .ok (.file content mode)) (hd : d ≠ []) :
    read? t who cwd path = some d ↔ who.mayRead mode = true ∧ HoldsObject maxBytes content d := by
  rw [read?_of_status h, Option.some.injEq, ← ofContent_eq_iff hd]
  cases who.mayRead mode with
  | false => simp [hd.symm]
  | true => simp

end Document

namespace Manifest

variable {t : Tree} {who : Account} {loc : Location} {content : ByteArray} {mode : Nat}
  {fields : Json.Object}

theorem ofContent_ok_iff_holdsObject : ofContent loc content = .ok fields ↔
    HoldsObject maxBytes content fields := by
  rw [ofContent_ok_iff]
  constructor
  · rintro ⟨text, rfl, hle, hjson⟩
    exact ⟨hle, text, rfl, hjson⟩
  · rintro ⟨hle, text, rfl, hjson⟩
    exact ⟨text, rfl, hle, hjson⟩

theorem fields_eq_ok_iff (h : t.linkStatus .root loc.text = .ok (.file content mode)) :
    (fileContent t who loc >>= ofContent loc) = .ok fields ↔
      who.mayRead mode = true ∧ HoldsObject maxBytes content fields := by
  rw [fileContent_file h]
  cases who.mayRead mode with
  | false => simp [bind, Except.bind]
  | true => simp [bind, Except.bind, ofContent_ok_iff_holdsObject]

end Manifest

/-- A text is read if and only if it is the whole content and not longer than allowed; of a longer content none
is read, and that is an error exactly if the bytes read are no text, as where a character is cut. So a settings
file is read as a document that is not empty, and a manifest as an object, exactly if it may be read and its
whole content is the text of that object and not longer than allowed. -/
theorem only_whole_texts_are_read :
    (∀ (limit : Nat) (content : ByteArray),
      (∀ text, readBounded limit content = .ok (some text) ↔
        content.size ≤ limit ∧ content = text.toUTF8) ∧
      (limit < content.size →
        readBounded limit content = .ok none ∨ readBounded limit content = .error .notUtf8) ∧
      ∀ text, content = text.toUTF8 → limit < content.size →
        (readBounded limit content = .error .notUtf8 ↔ ¬ String.Pos.Raw.IsValid text ⟨limit + 1⟩)) ∧
    (∀ (t : Tree) (who : Account) (cwd : WorkingDirectory) (path : String) (content : ByteArray)
      (mode : Nat), t.status cwd path = .ok (.file content mode) → ∀ d ≠ [],
        (Document.read? t who cwd path = some d ↔
          who.mayRead mode = true ∧ HoldsObject (1024 * 1024) content d)) ∧
    ∀ (t : Tree) (who : Account) (loc : Location) (content : ByteArray) (mode : Nat),
      t.linkStatus .root loc.text = .ok (.file content mode) → ∀ fields,
        ((Manifest.fileContent t who loc >>= Manifest.ofContent loc) = .ok fields ↔
          who.mayRead mode = true ∧ HoldsObject (1024 * 1024) content fields) := by
  refine ⟨fun limit content => ⟨fun text => ?_, fun hlong => ?_, ?_⟩, ?_, ?_⟩
  · rw [readBounded_ok_iff, and_comm]
    refine and_congr_left ?_
    rintro rfl
    exact Iff.rfl
  · rw [readBounded_of_long hlong]
    split
    · exact .inl rfl
    · exact .inr rfl
  · rintro text rfl hlong
    rw [readBounded_toUTF8_of_long hlong]
    simp only [ite_eq_right_iff, reduceCtorEq, imp_false]
  · intro t who cwd path content mode hfile d hd
    exact Document.read?_eq_some_iff hfile hd
  · intro t who loc content mode hfile fields
    exact Manifest.fields_eq_ok_iff hfile

def memberText : String := "\x7b\"a\":1\x7d"

def memberTree : Tree := .ofList [(["f"], .file memberText.toUTF8 0o644)]

theorem only_whole_texts_are_read_member :
    readBounded 0 "é".toUTF8 = .error .notUtf8 ∧
    memberTree.status .root "/f" = .ok (.file memberText.toUTF8 0o644) ∧
    Document.read? memberTree .owner .root "/f" = some [("a", .number (.integer 1))] ∧
    (Manifest.fileContent memberTree .owner ["f"] >>= Manifest.ofContent ["f"]) =
      .ok [("a", .number (.integer 1))] := by
  obtain ⟨hread, hsettings, hmanifest⟩ := only_whole_texts_are_read
  have hobject : HoldsObject (1024 * 1024) memberText.toUTF8 [("a", .number (.integer 1))] :=
    ⟨by decide, memberText, rfl, rfl⟩
  have hstatus : memberTree.status .root "/f" = .ok (.file memberText.toUTF8 0o644) :=
    rfl
  have hlink : memberTree.linkStatus .root (Location.text ["f"]) =
      .ok (.file memberText.toUTF8 0o644) := rfl
  have hcut : ¬ String.Pos.Raw.IsValid "é" ⟨0 + 1⟩ := by decide
  exact ⟨((hread 0 "é".toUTF8).2.2 "é" rfl (by decide)).mpr hcut, hstatus,
    (hsettings memberTree .owner .root "/f" _ _ hstatus _ (by simp)).mpr ⟨rfl, hobject⟩,
    (hmanifest memberTree .owner ["f"] _ _ hlink _).mpr ⟨rfl, hobject⟩⟩

end PluginConsent
