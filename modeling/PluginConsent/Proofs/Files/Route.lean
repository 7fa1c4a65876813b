import PluginConsent.Files.Change

namespace PluginConsent

theorem utf8ByteSize_replicate {c : Char} (h : c.utf8Size = 1) (n : Nat) :
    (String.ofList (List.replicate n c)).utf8ByteSize = n := by
  induction n with
  | zero => rfl
  | succ n ih =>
      have hlast : (String.ofList [c]).utf8ByteSize = 1 := by simp [h]
      rw [List.replicate_succ', String.ofList_append, String.utf8ByteSize_append, ih, hlast]

namespace Location

def IsName (name : String) : Prop :=
  name ≠ "" ∧ '/' ∉ name.toList ∧ Tree.isDotName name = false ∧
    name.utf8ByteSize ≤ Tree.maxNameBytes

instance (name : String) : Decidable (IsName name) := inferInstanceAs (Decidable (_ ∧ _))

theorem text_cons (name : String) (loc : Location) :
    text (name :: loc) = "/" ++ String.intercalate "/" (name :: loc) := by
  rw [text, if_neg (List.cons_ne_nil name loc)]
  induction loc generalizing name with
  | nil => simp
  | cons next loc ih =>
      rw [List.map_cons, String.join_cons, ih, String.intercalate_cons_cons]
      simp only [String.append_assoc]

theorem toList_text {loc : Location} (h : loc ≠ []) :
    loc.text.toList = loc.flatMap ('/' :: ·.toList) := by
  have hslash : "/".toList = ['/'] := rfl
  rw [text, if_neg h, String.toList_join, List.flatMap_map]
  simp [hslash]

theorem not_below_prefix (dir : Location) (name : String) : ¬ dir ++ [name] <+: dir := by
  intro h
  have hle := h.length_le
  rw [List.length_append, List.length_singleton] at hle
  omega

theorem bytes_append (loc loc' : Location) : (loc ++ loc').bytes = loc.bytes + loc'.bytes := by
  have h (n : Nat) : loc'.foldl (fun n name => n + name.utf8ByteSize + 1) n = n + loc'.bytes := by
    induction loc' generalizing n with
    | nil => rfl
    | cons name loc' ih =>
        rw [bytes, List.foldl_cons, List.foldl_cons, ih, ih (0 + name.utf8ByteSize + 1)]
        omega
  rw [bytes, List.foldl_append, h]
  rfl

theorem bytes_cons (name : String) (loc : Location) :
    bytes (name :: loc) = name.utf8ByteSize + 1 + loc.bytes := by
  have h := bytes_append [name] loc
  rwa [bytes.eq_def [name], List.foldl_cons, List.foldl_nil, Nat.zero_add] at h

theorem bytes_reverse (loc : Location) : bytes loc.reverse = loc.bytes := by
  induction loc with
  | nil => rfl
  | cons name loc ih =>
      rw [List.reverse_cons, bytes_append, ih, bytes_cons, bytes_cons]
      exact Nat.add_comm _ _

theorem utf8ByteSize_text {loc : Location} (h : loc ≠ []) : loc.text.utf8ByteSize = loc.bytes := by
  rw [text, if_neg h]
  clear h
  induction loc with
  | nil => rfl
  | cons name loc ih =>
      have hslash : "/".utf8ByteSize = 1 := rfl
      rw [List.map_cons, String.join_cons, String.utf8ByteSize_append, String.utf8ByteSize_append, ih,
        hslash, bytes_cons, Nat.add_comm 1]

end Location

namespace Route

theorem splitOnto_append {part name : List Char} (h : '/' ∉ name) (done : List String)
    (rest : List Char) :
    splitOnto done part (name ++ rest) = splitOnto done (name.reverse ++ part) rest := by
  induction name generalizing part with
  | nil => rfl
  | cons c cs ih =>
      have hc : c ≠ '/' := fun he => h (by simp [he])
      have hcs : '/' ∉ cs := fun he => h (by simp [he])
      rw [List.cons_append, splitOnto, if_neg hc, ih hcs]
      simp

theorem splitOnto_names {loc : Location} (h : ∀ name ∈ loc, '/' ∉ name.toList)
    (done : List String) (part : List Char) :
    splitOnto done part (loc.flatMap ('/' :: ·.toList)) =
      loc.reverse ++ String.ofList part.reverse :: done := by
  induction loc generalizing done part with
  | nil => rfl
  | cons name loc ih =>
      have hname : '/' ∉ name.toList := h name (by simp)
      rw [List.flatMap_cons, List.cons_append, splitOnto, if_pos rfl, splitOnto_append hname,
        ih fun n hn => h n (by simp [hn])]
      simp

theorem ofString_text {loc : Location} (hne : loc ≠ []) (h : ∀ name ∈ loc, '/' ∉ name.toList) :
    ofString loc.text = ⟨.root, loc.reverse⟩ := by
  rw [ofString, Location.toList_text hne]
  cases loc with
  | nil => exact absurd rfl hne
  | cons name loc =>
      have hname : '/' ∉ name.toList := h name (by simp)
      rw [List.flatMap_cons, List.cons_append, ofChars, split, splitOnto_append hname,
        splitOnto_names fun n hn => h n (by simp [hn])]
      simp

theorem text_reverse {loc : Location} (h : loc ≠ []) : text ⟨.root, loc.reverse⟩ = loc.text := by
  cases loc with
  | nil => exact absurd rfl h
  | cons name loc => rw [Location.text_cons, text, List.reverse_reverse]

theorem names_reverse {loc : Location} (h : ∀ name ∈ loc, name ≠ "") :
    names ⟨.root, loc.reverse⟩ = loc := by
  have hall : loc.reverse.filter (· ≠ "") = loc.reverse := by
    rw [List.filter_eq_self]
    intro name hn
    simpa using h name (List.mem_reverse.mp hn)
  simp only [names, hall, List.reverse_reverse]
  rfl

end Route

namespace Location

variable {loc : Location} {name : String}

theorem isName_of_mem_append (h : ∀ n ∈ loc, IsName n) (hname : IsName name) :
    ∀ n ∈ loc ++ [name], IsName n := by
  intro n hn
  rcases List.mem_append.mp hn with hn | hn
  · exact h n hn
  · rw [List.mem_singleton.mp hn]
    exact hname

theorem text_ne_empty (loc : Location) : loc.text ≠ "" := by
  intro he
  cases loc with
  | nil => exact absurd he (by decide)
  | cons name loc =>
      have hl := congrArg String.toList he
      rw [toList_text (List.cons_ne_nil name loc)] at hl
      simp at hl

theorem endsInSlash_text (hne : loc ≠ []) (h : ∀ n ∈ loc, IsName n) :
    Path.endsInSlash loc.text = false := by
  rcases List.eq_nil_or_concat loc with rfl | ⟨up, last, rfl⟩
  · exact absurd rfl hne
  · rw [List.concat_eq_append] at h ⊢
    obtain ⟨hempty, hslash, _⟩ := h last (by simp)
    have hlast : last.toList ≠ [] := by simpa using hempty
    have hget : ('/' :: last.toList).getLast? = some (last.toList.getLast hlast) := by
      rw [List.getLast?_cons, List.getLast?_eq_some_getLast hlast]
      rfl
    have hmem : last.toList.getLast hlast ≠ '/' := fun he => hslash (he ▸ List.getLast_mem hlast)
    rw [Path.endsInSlash, toList_text (by simp), List.flatMap_append]
    simp only [List.flatMap_cons, List.flatMap_nil, List.append_nil, List.getLast?_append, hget,
      Option.some_or]
    simpa using hmem

theorem isAbsolute_eq_false (h : '/' ∉ name.toList) : Path.isAbsolute name = false := by
  cases hn : Path.isAbsolute name with
  | false => rfl
  | true =>
      rw [Path.isAbsolute, beq_iff_eq] at hn
      exact absurd (List.mem_of_mem_head? hn) h

theorem join_text (h : ∀ n ∈ loc, IsName n) (hname : IsName name) :
    Path.join loc.text name = text (loc ++ [name]) := by
  have habs := isAbsolute_eq_false hname.2.1
  by_cases hne : loc = []
  · subst hne
    simp [Path.join, habs, text, Path.endsInSlash]
  · have hmiddle : ¬ (loc.text = "" ∨ Path.endsInSlash loc.text = true) := by
      simp [text_ne_empty loc, endsInSlash_text hne h]
    rw [Path.join, habs, if_neg Bool.false_ne_true, if_neg hmiddle]
    simp [text, hne, String.join_append, String.append_assoc]

theorem parentOf_text (hne : loc ≠ []) (h : ∀ n ∈ loc, IsName n) (hname : IsName name) :
    Tree.parentOf (text (loc ++ [name])) = loc.text := by
  have hall := isName_of_mem_append h hname
  have hidle {n : String} (hn : IsName n) : Route.isIdle n = false := by
    have hdot : n ≠ "." := by
      rintro rfl
      exact absurd hn.2.2.1 (by decide)
    simp [Route.isIdle, hn.1, hdot]
  have hup : loc.reverse.dropWhile Route.isIdle = loc.reverse := by
    rcases List.eq_nil_or_concat loc with rfl | ⟨up, last, rfl⟩
    · rfl
    · rw [List.concat_eq_append] at h ⊢
      rw [List.reverse_concat, List.dropWhile_cons, hidle (h last (by simp))]
      rfl
  have hparent : Path.parent? (text (loc ++ [name])) = some loc.text := by
    rw [Path.parent?, Route.ofString_text (by simp) fun n hn => (hall n hn).2.1, Route.parent?,
      List.reverse_concat, List.dropWhile_cons, hidle hname]
    simp [hup, Route.text_reverse hne]
  rw [Tree.parentOf, hparent]
  split
  · next he => exact absurd (Option.some.inj he) (text_ne_empty loc)
  · next he => exact (Option.some.inj he).symm
  · next he => cases he

end Location

namespace Route

variable {name : List Char}

theorem split_name (h : '/' ∉ name) : split name = [String.ofList name] := by
  have hname : splitOnto [] [] (name ++ []) = _ := splitOnto_append h [] []
  simpa [splitOnto, split] using hname

theorem split_slash (h : '/' ∉ name) (cs : List Char) :
    split (cs ++ '/' :: name) = String.ofList name :: split cs := by
  have hsplit (done : List String) (part : List Char) :
      splitOnto done part (cs ++ '/' :: name) = String.ofList name :: splitOnto done part cs := by
    induction cs generalizing done part with
    | nil =>
        have hname : splitOnto _ [] (name ++ []) = _ :=
          splitOnto_append h (String.ofList part.reverse :: done) []
        simpa [splitOnto] using hname
    | cons c cs ih =>
        rw [List.cons_append, splitOnto, splitOnto]
        split
        · exact ih _ _
        · exact ih _ _
  exact hsplit [] []

theorem parts_ofChars_slash (h : '/' ∉ name) (cs : List Char) :
    ∃ parts, (ofChars (cs ++ '/' :: name)).parts = String.ofList name :: parts := by
  cases cs with
  | nil => exact ⟨[], split_name h⟩
  | cons c cs =>
      rw [List.cons_append]
      unfold ofChars
      split
      · next he => cases he
      · next he =>
        obtain ⟨_, rfl⟩ := List.cons.inj he
        exact ⟨_, split_slash h cs⟩
      · next he => simp at he
      · next he =>
        obtain ⟨_, he⟩ := List.cons.inj he
        cases cs with
        | nil =>
            obtain ⟨_, rfl⟩ := List.cons.inj he
            exact ⟨[], split_name h⟩
        | cons c' cs =>
            obtain ⟨_, rfl⟩ := List.cons.inj he
            exact ⟨_, split_slash h cs⟩
      · exact ⟨_, split_slash h (c :: cs)⟩

theorem walk_join {base name : String} (hbase : base ≠ "") (hname : Location.IsName name) :
    ∃ names, (ofString (Path.join base name)).walk = names ++ [name] := by
  obtain ⟨hempty, hslash, _⟩ := hname
  have htext : ∃ cs, (Path.join base name).toList = cs ++ '/' :: name.toList := by
    rw [Path.join, Location.isAbsolute_eq_false hslash, if_neg Bool.false_ne_true]
    split
    · next h =>
      obtain ⟨cs, hcs⟩ := List.getLast?_eq_some_iff.mp (beq_iff_eq.mp (h.resolve_left hbase))
      exact ⟨cs, by simp [hcs]⟩
    · exact ⟨base.toList, by simp⟩
  obtain ⟨cs, hcs⟩ := htext
  obtain ⟨parts, hparts⟩ := parts_ofChars_slash hslash cs
  rw [← hcs, String.ofList_toList] at hparts
  change (ofString (Path.join base name)).parts = name :: parts at hparts
  generalize ofString (Path.join base name) = route at hparts
  have hend : route.endsInSlash = false := by simp [endsInSlash, hparts, hempty]
  rw [walk, hend, if_neg Bool.false_ne_true, names, hparts,
    List.filter_cons_of_pos (by simpa using hempty), List.reverse_cons]
  split
  · exact ⟨"." :: (parts.filter (· ≠ "")).reverse, rfl⟩
  · exact ⟨_, rfl⟩

end Route

end PluginConsent
