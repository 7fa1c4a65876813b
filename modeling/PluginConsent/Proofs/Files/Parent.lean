import PluginConsent.Proofs.Files.Route

namespace PluginConsent

namespace Route

def Dots (names : List String) : Prop := ∀ name ∈ names, name = "."

theorem slash_notMem_splitOnto {done : List String} {part : List Char} (cs : List Char)
    (hdone : ∀ p ∈ done, '/' ∉ p.toList) (hpart : '/' ∉ part) :
    ∀ p ∈ splitOnto done part cs, '/' ∉ p.toList := by
  have hnext : ∀ p ∈ String.ofList part.reverse :: done, '/' ∉ p.toList := by
    intro p hp
    rcases List.mem_cons.mp hp with rfl | hp
    · simpa using hpart
    · exact hdone p hp
  induction cs generalizing done part with
  | nil => exact hnext
  | cons c cs ih =>
      rw [splitOnto]
      split
      · refine ih hnext (by simp) fun p hp => ?_
        rcases List.mem_cons.mp hp with rfl | hp
        · simp
        · exact hnext p hp
      · next hc =>
        have hmore : '/' ∉ c :: part := by simp [hpart, Ne.symm hc]
        refine ih hdone hmore fun p hp => ?_
        rcases List.mem_cons.mp hp with rfl | hp
        · simpa using ⟨hpart, Ne.symm hc⟩
        · exact hdone p hp

theorem getLast?_splitOnto (done : List String) (part cs : List Char) :
    (splitOnto done part cs).getLast? =
      done.getLast?.or (some (String.ofList (part.reverse ++ cs.takeWhile (· ≠ '/')))) := by
  induction cs generalizing done part with
  | nil => cases h : done.getLast? <;> simp [splitOnto, List.getLast?_cons, h]
  | cons c cs ih =>
      rw [splitOnto]
      split
      · next hc => cases h : done.getLast? <;> simp [ih, List.getLast?_cons, h, hc]
      · next hc => simp [ih, hc]

theorem split_intercalate {part : String} {parts : List String}
    (h : ∀ p ∈ part :: parts, '/' ∉ p.toList) :
    split (String.intercalate "/" (part :: parts)).toList = (part :: parts).reverse := by
  have htext : (String.intercalate "/" (part :: parts)).toList =
      part.toList ++ parts.flatMap ('/' :: ·.toList) := by
    have hslash : "/".toList = ['/'] := rfl
    have hcons := congrArg String.toList (Location.text_cons part parts)
    rw [Location.toList_text (by simp), List.flatMap_cons, String.toList_append, hslash] at hcons
    exact (List.cons.inj hcons).2.symm
  rw [htext, split, splitOnto_append (h part (by simp)),
    splitOnto_names fun p hp => h p (by simp [hp])]
  simp

theorem getLast?_split (cs : List Char) :
    (split cs).getLast? = some (String.ofList (cs.takeWhile (· ≠ '/'))) := by
  rw [split, getLast?_splitOnto]
  rfl

theorem ofChars_name {cs : List Char} (hempty : cs.takeWhile (· ≠ '/') ≠ [])
    (hdot : cs.takeWhile (· ≠ '/') ≠ ['.']) : ofChars cs = ⟨.name, split cs⟩ := by
  unfold ofChars
  split
  · exact absurd rfl hempty
  · simp at hempty
  · simp at hdot
  · simp at hdot
  · rfl

structure Plain (r : Route) : Prop where
  slashFree : ∀ p ∈ r.parts, '/' ∉ p.toList
  first : r.start = .name → ∀ p, r.parts.getLast? = some p → p ≠ "" ∧ p ≠ "."

theorem plain_ofString (path : String) : (ofString path).Plain := by
  have hsplit (cs : List Char) : ∀ p ∈ split cs, '/' ∉ p.toList :=
    slash_notMem_splitOnto cs (by simp) (by simp)
  rw [ofString]
  generalize path.toList = cs
  unfold ofChars
  split
  · exact ⟨by simp, by simp⟩
  · exact ⟨hsplit _, by simp⟩
  · exact ⟨by simp, by simp⟩
  · exact ⟨hsplit _, by simp⟩
  · next hnil hroot hdot hslash =>
    refine ⟨hsplit _, fun _ p hp => ?_⟩
    rw [getLast?_split, Option.some.injEq] at hp
    subst hp
    cases cs with
    | nil => exact absurd rfl hnil
    | cons c cs =>
        have hc : c ≠ '/' := fun he => hroot cs (by rw [he])
        rw [List.takeWhile_cons_of_pos (by simpa using hc)]
        constructor
        · intro he
          simpa using congrArg String.toList he
        · intro he
          have hl := congrArg String.toList he
          have hone : ".".toList = ['.'] := rfl
          rw [String.toList_ofList, hone] at hl
          obtain ⟨rfl, hl⟩ := List.cons.inj hl
          cases cs with
          | nil => exact hdot rfl
          | cons c' cs =>
              by_cases hc' : c' = '/'
              · exact hslash cs (by rw [hc'])
              · simp [hc'] at hl

theorem ofString_text_of_plain {r : Route} (h : r.Plain) (hne : r.parts ≠ []) :
    ofString r.text = r := by
  obtain ⟨start, parts⟩ := r
  rcases List.eq_nil_or_concat parts with rfl | ⟨rest, first, rfl⟩
  · exact absurd rfl hne
  rw [List.concat_eq_append] at h ⊢
  have hall : ∀ p ∈ first :: rest.reverse, '/' ∉ p.toList := fun p hp =>
    h.slashFree p (by simpa [or_comm] using hp)
  have hrev : (rest ++ [first]).reverse = first :: rest.reverse := by simp
  have hsplit : split (String.intercalate "/" (first :: rest.reverse)).toList = rest ++ [first] := by
    rw [split_intercalate hall]
    simp
  rw [ofString, text]
  dsimp only
  rw [hrev]
  cases start with
  | root =>
      have hroot : "/".toList = ['/'] := rfl
      rw [String.toList_append, hroot, ← hsplit]
      rfl
  | dot =>
      have hdot : "./".toList = ['.', '/'] := rfl
      rw [if_neg (by simp), String.toList_append, hdot, ← hsplit]
      rfl
  | name =>
      -- The text must not start with a slash or a dot that stands alone, as it would be taken for these.
      obtain ⟨hempty, hsingle⟩ := h.first rfl first (by simp)
      generalize (String.intercalate "/" (first :: rest.reverse)).toList = cs at hsplit
      have hfirst : String.ofList (cs.takeWhile (· ≠ '/')) = first := by
        have hlast := getLast?_split cs
        rw [hsplit, List.getLast?_concat] at hlast
        exact (Option.some.inj hlast).symm
      rw [← hsplit]
      apply ofChars_name
      · intro he
        exact hempty (by rw [← hfirst, he])
      · intro he
        exact hsingle (by rw [← hfirst, he])

def lead (r : Route) : List String := if r.start = .dot then ["."] else []

theorem names_eq (r : Route) : r.names = r.lead ++ (r.parts.filter (· ≠ "")).reverse := by
  rw [names, lead]
  split <;> rfl

theorem dots_lead (r : Route) : Dots r.lead := by
  rw [lead]
  split <;> simp [Dots]

theorem dots_filter_idle {parts : List String} (h : ∀ p ∈ parts, isIdle p = true) :
    Dots (parts.filter (· ≠ "")).reverse := by
  intro p hp
  obtain ⟨hp, hne⟩ := List.mem_filter.mp (List.mem_reverse.mp hp)
  have hidle := h p hp
  simp only [isIdle, Bool.or_eq_true, beq_iff_eq] at hidle
  exact hidle.resolve_left (by simpa using hne)

theorem names_dropWhile_isIdle (start : Start) (parts : List String) :
    ∃ dots, Dots dots ∧
      names ⟨start, parts⟩ = names ⟨start, parts.dropWhile isIdle⟩ ++ dots := by
  refine ⟨((parts.takeWhile isIdle).filter (· ≠ "")).reverse,
    dots_filter_idle (List.all_eq_true.mp List.all_takeWhile), ?_⟩
  rw [names_eq, names_eq, List.append_assoc, ← List.reverse_append, ← List.filter_append,
    List.takeWhile_append_dropWhile]
  rfl

/-- One route is the parent of another: the names of the other are its own, perhaps dots, the name of
something in it, and perhaps dots again. -/
structure IsParent (up r : Route) (name : String) (behind : List String) : Prop where
  start : up.start = r.start
  parts : up.parts <:+ r.parts
  proper : isIdle name = false
  idle : Dots behind
  names : ∃ dots, Dots dots ∧ r.names = up.names ++ dots ++ name :: behind

/-- Only a path that consists of dots has no parent, or the empty path as one. -/
theorem parent?_cases (r : Route) :
    (Dots r.names ∧ ∀ up, r.parent? = some up → up = ⟨.name, []⟩) ∨
    ∃ up name behind, r.parent? = some up ∧ IsParent up r name behind := by
  obtain ⟨start, parts⟩ := r
  obtain ⟨behind, hbehind, hnames⟩ := names_dropWhile_isIdle start parts
  cases hd : parts.dropWhile isIdle with
  | nil =>
      refine .inl ⟨?_, fun up hup => ?_⟩
      · have hlead : names ⟨start, []⟩ = lead ⟨start, parts⟩ := by simp [names_eq, lead]
        rw [hnames, hd, hlead]
        exact fun name hn => (List.mem_append.mp hn).elim (dots_lead _ name) (hbehind name)
      · simp only [parent?, hd] at hup
        split at hup
        · exact (Option.some.inj hup).symm
        · cases hup
  | cons name up =>
      have hname : isIdle name = false := by
        have hnot := List.head?_dropWhile_not isIdle parts
        rwa [hd] at hnot
      have hne : name ≠ "" := by
        rintro rfl
        cases hname
      obtain ⟨dots, hdots, hup⟩ := names_dropWhile_isIdle start up
      refine .inr ⟨⟨start, up.dropWhile isIdle⟩, name, behind, by simp [parent?, hd], rfl, ?_, hname,
        hbehind, dots, hdots, ?_⟩
      · have hsuffix := List.dropWhile_suffix (l := parts) isIdle
        rw [hd] at hsuffix
        exact (List.dropWhile_suffix isIdle).trans ((List.suffix_cons name up).trans hsuffix)
      · have hlast : names ⟨start, name :: up⟩ = names ⟨start, up⟩ ++ [name] := by
          rw [names_eq, names_eq, List.filter_cons_of_pos (by simpa using hne), List.reverse_cons,
            ← List.append_assoc]
          rfl
        rw [hnames, hd, hlast, hup]
        simp

theorem parent?_of_names {r : Route} {names : List String} {name : String}
    (h : r.names = names ++ [name]) (hdot : Tree.isDotName name = false) :
    ∃ up, r.parent? = some up ∧ IsParent up r name [] := by
  have hname : name ≠ "." := by
    rintro rfl
    cases hdot
  rcases parent?_cases r with ⟨hdots, _⟩ | ⟨up, name', behind, hup, hparent⟩
  · exact absurd (hdots name (by simp [h])) hname
  · refine ⟨up, hup, ?_⟩
    obtain ⟨dots, _, hnames⟩ := hparent.names
    rw [h] at hnames
    rcases List.eq_nil_or_concat behind with rfl | ⟨_, last, rfl⟩
    · rw [List.head_eq_of_cons_eq (List.append_inj' hnames rfl).2]
      exact hparent
    · rw [List.concat_eq_append, ← List.cons_append, ← List.append_assoc] at hnames
      have hlast : name = last := List.head_eq_of_cons_eq (List.append_inj' hnames rfl).2
      exact absurd (hparent.idle last (by simp)) (hlast ▸ hname)

theorem IsParent.init {r up : Route} {name : String} {names : List String}
    (h : IsParent up r name []) (hnames : r.names = names ++ [name]) :
    ∃ dots, Dots dots ∧ names = up.names ++ dots := by
  obtain ⟨dots, hdots, hall⟩ := h.names
  rw [hnames] at hall
  exact ⟨dots, hdots, (List.append_inj' hall rfl).1⟩

theorem Plain.parent {r up : Route} {name : String} {behind : List String} (h : r.Plain)
    (hup : IsParent up r name behind) : up.Plain := by
  refine ⟨fun p hp => h.slashFree p (hup.parts.mem hp), fun hs p hp => ?_⟩
  refine h.first (hup.start ▸ hs) p ?_
  obtain ⟨before, hb⟩ := hup.parts
  rw [← hb, List.getLast?_append, hp]
  rfl

theorem parentOf_cases {path : String} {names : List String} {name : String}
    (h : (ofString path).names = names ++ [name]) (hdot : Tree.isDotName name = false) :
    Tree.parentOf path = "." ∨ ∃ dots, Dots dots ∧
      names = (ofString (Tree.parentOf path)).names ++ dots ∧
      (ofString (Tree.parentOf path)).start = (ofString path).start := by
  obtain ⟨up, hup, hparent⟩ := parent?_of_names h hdot
  obtain ⟨dots, hdots, hnames⟩ := hparent.init h
  have htext : Path.parent? path = some up.text := by rw [Path.parent?, hup]; rfl
  by_cases hparts : up.parts = []
  · obtain ⟨start, parts⟩ := up
    subst hparts
    cases start with
    | root =>
        have hof : Tree.parentOf path = "/" := by rw [Tree.parentOf, htext]; rfl
        rw [hof]
        exact .inr ⟨dots, hdots, hnames, hparent.start⟩
    | dot => exact .inl (by rw [Tree.parentOf, htext]; rfl)
    | name => exact .inl (by rw [Tree.parentOf, htext]; rfl)
  · have hback := ofString_text_of_plain ((plain_ofString path).parent hparent) hparts
    have hof : Tree.parentOf path = up.text := by
      rw [Tree.parentOf, htext]
      split
      · next he =>
        rw [Option.some.inj he] at hback
        exact absurd (congrArg Route.parts hback).symm hparts
      · next he => exact (Option.some.inj he).symm
      · next he => cases he
    rw [hof, hback]
    exact .inr ⟨dots, hdots, hnames, hparent.start⟩

end Route

end PluginConsent
