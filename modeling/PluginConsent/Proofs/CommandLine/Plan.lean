import PluginConsent.Proofs.CommandLine.Lines
import PluginConsent.Proofs.Review.Plan

namespace PluginConsent

open Text (breaks)

namespace Text

variable {c : Char} {n : Nat} {runs : List CaseRun} {long : List (Nat × List Nat)}

theorem ofNat_ne_feed (h : n ≠ 10) : Char.ofNat n ≠ '\n' := by
  intro hc
  have hn : (Char.ofNat n).toNat = 10 := congrArg Char.toNat hc
  rw [Char.toNat_ofNat] at hn
  split at hn
  · exact h hn
  · cases hn

theorem add_offsetIn_ne_feed (hruns : ∀ r ∈ runs, 10 < r.first + r.offset) (hn : n ≠ 10) :
    n + offsetIn runs n ≠ 10 := by
  induction runs with
  | nil => simpa [offsetIn] using mod_cast hn
  | cons r runs ih =>
      obtain ⟨hr, hruns⟩ := List.forall_mem_cons.mp hruns
      rw [offsetIn]
      split
      · omega
      split
      · omega
      · exact ih hruns

theorem feed_notMem_mapCase (hlong : ∀ p ∈ long, 10 ∉ p.2) (hruns : ∀ r ∈ runs, 10 < r.first + r.offset)
    (hc : c ≠ '\n') : '\n' ∉ mapCase long runs c := by
  rw [mapCase]
  split
  · next ns hns =>
    obtain ⟨before, after, rfl, _⟩ := List.lookup_eq_some_iff.mp hns
    intro h
    obtain ⟨n, hn, hfeed⟩ := List.mem_map.mp h
    refine ofNat_ne_feed (fun h10 => ?_) hfeed
    exact hlong _ (List.mem_append_right _ List.mem_cons_self) (h10 ▸ hn)
  · have hn : c.toNat ≠ 10 := fun h => hc (Char.toNat_inj.mp h)
    have hsum := add_offsetIn_ne_feed hruns hn
    rw [List.mem_singleton]
    exact (ofNat_ne_feed (by omega)).symm

theorem feed_notMem_upper (hc : c ≠ '\n') : '\n' ∉ upper c :=
  feed_notMem_mapCase (by decide +kernel) (by decide +kernel) hc

theorem feed_notMem_lower (hc : c ≠ '\n') : '\n' ∉ lower c :=
  feed_notMem_mapCase (by decide +kernel) (by decide +kernel) hc

end Text

namespace Category

theorem count_titleCase (start : Bool) (cs : List Char) :
    (titleCase start cs).count '\n' = cs.count '\n' := by
  induction cs generalizing start with
  | nil => rfl
  | cons c cs ih =>
      have hdash : ((if c = '-' then ' ' else c) == '\n') = (c == '\n') := by
        split
        · next h => rw [h]; decide
        · rfl
      rw [titleCase, List.count_cons, ← hdash]
      generalize (if c = '-' then ' ' else c) = d
      split
      · next hletter =>
        have hd : d ≠ '\n' := by
          rintro rfl
          exact absurd hletter (by decide +kernel)
        have hcased : '\n' ∉ if start then Text.upper d else Text.lower d := by
          split
          · exact Text.feed_notMem_upper hd
          · exact Text.feed_notMem_lower hd
        rw [List.count_append, List.count_eq_zero_of_not_mem hcased, ih]
        simp [hd]
      · rw [List.count_cons, ih]

theorem breaks_fallbackLabel (key : String) : breaks (fallbackLabel key) = breaks key := by
  rw [fallbackLabel, Text.breaks_ofList, count_titleCase, breaks]

theorem breaks_describe (key : String) :
    breaks (describe key).label = breaks key ∧ breaks (describe key).description = breaks key := by
  have hcatalogue : ∀ l ∈ catalogue,
      breaks l.key = 0 ∧ breaks l.label = 0 ∧ breaks l.description = 0 := by decide +kernel
  rw [describe]
  cases h : listed? key with
  | none =>
      have hprefix : breaks "Permissions for " = 0 := by decide
      simp [breaks_fallbackLabel, hprefix]
  | some l =>
      obtain ⟨hkey, hlabel, hdescription⟩ := hcatalogue l (List.mem_of_find?_eq_some h)
      have hfound := List.find?_some h
      obtain rfl : l.key = key := of_decide_eq_true hfound
      rw [Option.getD_some, hkey, hlabel, hdescription]
      exact ⟨rfl, rfl⟩

theorem breaks_guess (rule : String) : breaks (guess rule) = 0 := by
  have hfor (tool pattern : String) : breaks (guessFor tool pattern) = 0 := by
    unfold guessFor
    repeat' split
    all_goals decide
  rw [guess]
  split
  · exact hfor _ _
  · exact hfor _ _

end Category

theorem Action.breaks_name (a : Action) : breaks a.name = 0 := by cases a <;> decide

theorem Scope.breaks_name (scope : Scope) : breaks scope.name = 0 := by cases scope <;> decide

theorem Conflict.breaks_line (c : Conflict) : breaks c.line = breaks c.rule + breaks c.category := by
  have hindent : breaks "  " = 0 := by decide
  have harrow : breaks " -> " = 0 := by decide
  have hopen : breaks "  (" = 0 := by decide
  have hclose : breaks ")" = 0 := by decide
  rw [line]
  simp only [Text.breaks_append, hindent, harrow, hopen, hclose, Action.breaks_name]
  omega

namespace Declaration

/-- No one who asks for something is named with a line feed, and nothing asked for holds one. -/
def Unbroken (ds : List Declaration) : Prop :=
  ∀ w ∈ ds.flatMap wishes, breaks w.key = 0 ∧ breaks w.plugin = 0 ∧ ∀ rule ∈ w.rules, breaks rule = 0

instance (ds : List Declaration) : Decidable (Unbroken ds) :=
  inferInstanceAs (Decidable (∀ w ∈ ds.flatMap wishes, _))

theorem Unbroken.wanted {ds : List Declaration} {key name : String} {fields : Json.Object}
    (h : Unbroken ds) (hw : Wants ds key name fields) :
    breaks key = 0 ∧ breaks name = 0 ∧ ∀ rule, Wish.Asks fields rule → breaks rule = 0 := by
  obtain ⟨hkey, hname, hrules⟩ := h ⟨name, key, fields⟩ (mem_wishes.mpr hw)
  exact ⟨hkey, hname, fun rule hasks => hrules rule (Wish.mem_rules.mpr hasks)⟩

end Declaration

namespace Plan

variable {p : Plan}

structure Derived (p : Plan) : Prop where
  label : ∀ c ∈ p.categories, c.2.label = (Category.describe c.1).label
  description : ∀ c ∈ p.categories, c.2.description = (Category.describe c.1).description
  category : ∀ c ∈ p.conflicts, c.category = Category.guess c.rule
  rule : ∀ c ∈ p.conflicts, ∃ category ∈ p.categories, c.rule ∈ category.2.rules

/-- Two lines at the top, three for each category and one for each of its rules; and three before the
conflicts, if there are any, and one for each. -/
def neededLines (p : Plan) : Nat :=
  2 + (p.categories.map fun c => 3 + c.2.rules.length).sum
    + if p.conflicts = [] then 0 else 3 + p.conflicts.length

def feeds (c : String × Category) : Nat :=
  3 * breaks c.1 + (c.2.rules.map breaks).sum + (c.2.sources.map breaks).sum

/-- The lines that line feeds in what is shown add to those that are needed. -/
def extraLines (p : Plan) : Nat :=
  (p.categories.map feeds).sum + (p.conflicts.map fun c => breaks c.rule).sum

def Unbroken (p : Plan) : Prop :=
  ∀ c ∈ p.categories, breaks c.1 = 0 ∧ (∀ rule ∈ c.2.rules, breaks rule = 0) ∧
    ∀ name ∈ c.2.sources, breaks name = 0

theorem breaks_underline : breaks CommandLine.underline = 0 := by decide +kernel

theorem sum_breaks_categoryLines (h : p.Derived) {c : String × Category} (hc : c ∈ p.categories) :
    ((categoryLines c).map breaks).sum = feeds c := by
  have hindent : breaks "  " = 0 := by decide
  have hopen : breaks " [" = 0 := by decide
  have hsuggested : breaks "]  suggested: " = 0 := by decide
  have hdeep : breaks "    " = 0 := by decide
  have hitem : breaks "    - " = 0 := by decide
  have hby : breaks "    requested by " = 0 := by decide
  have hcomma : breaks ", " = 0 := by decide
  have hrules : ((c.2.rules.map ("    - " ++ ·)).map breaks).sum = (c.2.rules.map breaks).sum := by
    rw [List.map_map]
    congr 2
    funext rule
    simp [hitem]
  obtain ⟨hlabel, hdescription⟩ := Category.breaks_describe c.1
  rw [← h.label c hc] at hlabel
  rw [← h.description c hc] at hdescription
  simp only [categoryLines, CommandLine.listed, List.map_append, List.sum_append, List.map_cons,
    List.map_nil, List.sum_cons, List.sum_nil, Text.breaks_append, Text.breaks_intercalate hcomma,
    Action.breaks_name, hindent, hopen, hsuggested, hdeep, hby, hrules, hlabel, hdescription, feeds]
  omega

theorem breaks_unlines_categoryLines (h : p.Derived) {c : String × Category} (hc : c ∈ p.categories) :
    breaks (unlines (categoryLines c)) = 3 + c.2.rules.length + feeds c := by
  have hlength : (categoryLines c).length = 3 + c.2.rules.length := by
    simp [categoryLines]
    omega
  rw [Text.breaks_unlines, hlength, sum_breaks_categoryLines h hc]

theorem breaks_unlines_categories (h : p.Derived) :
    breaks (unlines (p.categories.flatMap categoryLines)) =
      (p.categories.map fun c => 3 + c.2.rules.length).sum + (p.categories.map feeds).sum := by
  rw [Text.breaks_unlines_flatMap, ← List.sum_map_add]
  exact congrArg List.sum (List.map_congr_left fun c hc => breaks_unlines_categoryLines h hc)

theorem breaks_unlines_conflictLines (h : p.Derived) : breaks (unlines p.conflictLines) =
    (if p.conflicts = [] then 0 else 3 + p.conflicts.length) +
      (p.conflicts.map fun c => breaks c.rule).sum := by
  have hempty : breaks "" = 0 := by decide
  have hwith : breaks "Conflicts with " = 0 := by decide
  have hsettings : breaks " settings" = 0 := by decide
  have hlines : (p.conflicts.map Conflict.line).map breaks = p.conflicts.map fun c => breaks c.rule := by
    rw [List.map_map, List.map_inj_left]
    intro c hc
    rw [Function.comp_apply, Conflict.breaks_line, h.category c hc, Category.breaks_guess, Nat.add_zero]
  rw [Text.breaks_unlines, conflictLines]
  split
  · next hnil => simp [hnil]
  · next hne =>
    rw [if_neg hne]
    simp only [List.map_append, List.sum_append, hlines]
    simp [hempty, hwith, hsettings, breaks_underline, Scope.breaks_name]
    omega

theorem breaks_unlines_lines (h : p.Derived) (hne : p.categories ≠ []) :
    breaks (unlines p.lines) = p.neededLines + p.extraLines := by
  have htop : breaks (unlines ["Requested permissions", CommandLine.underline]) = 2 := by
    have htitle : breaks "Requested permissions" = 0 := by decide +kernel
    simp [Text.breaks_unlines, htitle, breaks_underline]
  rw [lines]
  split
  · next hnil => exact absurd hnil hne
  · rw [Text.unlines_append, Text.unlines_append, Text.breaks_append, Text.breaks_append, htop,
      breaks_unlines_categories h, breaks_unlines_conflictLines h, neededLines, extraLines]
    omega

theorem feeds_eq_zero_iff {c : String × Category} : feeds c = 0 ↔
    breaks c.1 = 0 ∧ (∀ rule ∈ c.2.rules, breaks rule = 0) ∧ ∀ name ∈ c.2.sources, breaks name = 0 := by
  rw [← Text.sum_breaks_eq_zero_iff, ← Text.sum_breaks_eq_zero_iff, feeds]
  omega

theorem extraLines_eq_zero_iff (h : p.Derived) : p.extraLines = 0 ↔ p.Unbroken := by
  rw [extraLines, Nat.add_eq_zero_iff, List.sum_eq_zero_iff, List.sum_eq_zero_iff, List.forall_mem_map,
    List.forall_mem_map]
  simp only [feeds_eq_zero_iff]
  refine ⟨And.left, fun hplan => ⟨hplan, fun c hc => ?_⟩⟩
  obtain ⟨category, hcategory, hrule⟩ := h.rule c hc
  exact (hplan category hcategory).2.1 _ hrule

end Plan

namespace Review

variable (r : Review) (env : Surroundings) (t : Tree) (scope : Scope)

theorem sums_of_mem_plan {c : String × Category} (hc : c ∈ (r.plan env t scope).categories) :
    c.1 ∈ Entries.keys (r.categories env t) ∧
      c.2.Sums r.preference c.1 (Declaration.Wants (r.scan env t).declarations c.1) := by
  have hkeys : (Entries.keys (r.categories env t)).Nodup := by
    rw [categories, Categories.keys_ofDeclarations]
    exact Ascending.nodup_of_isAscending (Ascending.isAscending_ofList _)
  exact ⟨List.mem_map_of_mem hc, Categories.sums_of_find? _ _ (Entries.find?_of_mem hkeys hc)⟩

theorem derived_plan : (r.plan env t scope).Derived := by
  have hclashes : Categories.Clashes (r.places.read env t scope) (r.plan env t scope).categories
      (r.plan env t scope).conflicts := Categories.clashes_conflicts _ _
  exact {
    label := fun c hc => (sums_of_mem_plan r env t scope hc).2.label
    description := fun c hc => (sums_of_mem_plan r env t scope hc).2.description
    category := fun c hc => (hclashes.actions c hc).2.2
    rule := fun c hc => ((hclashes.rules c.rule).mp (List.mem_map_of_mem hc)).1 }

variable {r env t} in
theorem unbroken_plan (h : Declaration.Unbroken (r.scan env t).declarations) :
    (r.plan env t scope).Unbroken := by
  intro c hc
  obtain ⟨hkey, hsums⟩ := sums_of_mem_plan r env t scope hc
  refine ⟨?_, fun rule hrule => ?_, fun name hname => ?_⟩
  · obtain ⟨name, fields, hw⟩ := (Categories.mem_keys_ofDeclarations _ _).mp hkey
    exact (h.wanted hw).1
  · obtain ⟨asked, hasked, hreduce⟩ := hsums.rules
    rw [hreduce] at hrule
    obtain ⟨name, fields, hw, hasks⟩ := (hasked rule).mp (Rule.mem_reduce.mp hrule).1
    exact (h.wanted hw).2.2 rule hasks
  · obtain ⟨fields, hw⟩ := (hsums.sources name).mp hname
    exact (h.wanted hw).2.1

end Review

namespace CommandLine

def shownPlan (r : Review) (env : Environment) (t : Tree) (l : Line) : Plan :=
  (if l.has .mostRestrictive then { r with preference := .mostRestrictive } else r).plan
    env.surroundings t l.scope

section

variable (r : Review) (env : Environment) (t : Tree) (l : Line) (verbose : Bool)

theorem derived_shownPlan : (shownPlan r env t l).Derived := Review.derived_plan _ _ _ _

variable {r env t l verbose}

theorem stdout_runPlan (hjson : l.has .json = false) :
    (Output.ofResult verbose (runPlan r env t l)).stdout = unlines (shownPlan r env t l).lines := by
  rw [runPlan, hjson]
  rfl

theorem unbroken_shownPlan (h : Declaration.Unbroken (r.scan env.surroundings t).declarations) :
    (shownPlan r env t l).Unbroken := by
  rw [shownPlan]
  split
  · exact Review.unbroken_plan _ h
  · exact Review.unbroken_plan _ h

theorem breaks_stdout_runPlan (hjson : l.has .json = false)
    (hne : (shownPlan r env t l).categories ≠ []) :
    breaks (Output.ofResult verbose (runPlan r env t l)).stdout =
      (shownPlan r env t l).neededLines + (shownPlan r env t l).extraLines := by
  rw [stdout_runPlan hjson, Plan.breaks_unlines_lines (derived_shownPlan r env t l) hne]

end

/-- A plan with a category is printed in the lines it needs and as many more as there are line feeds in the
texts of plugins that it shows. So it takes no more than it needs only if none of them holds one, as is so
if no manifest does. -/
theorem plan_prints_needed_and_extra_lines (r : Review) (env : Environment) (t : Tree) (l : Line)
    (verbose : Bool) (hjson : l.has .json = false) (hne : (shownPlan r env t l).categories ≠ []) :
    let plan := shownPlan r env t l
    let printed := breaks (Output.ofResult verbose (runPlan r env t l)).stdout
    printed = plan.neededLines + plan.extraLines ∧ (printed = plan.neededLines ↔ plan.Unbroken) ∧
    (Declaration.Unbroken (r.scan env.surroundings t).declarations → printed = plan.neededLines) := by
  intro plan printed
  have hcount : printed = plan.neededLines + plan.extraLines := breaks_stdout_runPlan hjson hne
  have hexact : printed = plan.neededLines ↔ plan.Unbroken := by
    rw [hcount, Nat.add_eq_left, Plan.extraLines_eq_zero_iff (derived_shownPlan r env t l)]
  exact ⟨hcount, hexact, fun hscan => hexact.mpr (unbroken_shownPlan hscan)⟩

def atRoot : Environment := ⟨Places.fromRoot, none, none, ByteArray.empty⟩

def planLine : Line := ⟨.nothing, .plan, .nothing⟩

theorem plan_prints_needed_and_extra_lines_git :
    let plan := shownPlan Review.reviewAtHome atRoot Review.gitCache planLine
    planLine.has .json = false ∧ plan.categories ≠ [] ∧
    Declaration.Unbroken (Review.reviewAtHome.scan atRoot.surroundings Review.gitCache).declarations ∧
    plan.neededLines = 6 ∧ plan.Unbroken ∧
    breaks (Output.ofResult false (runPlan Review.reviewAtHome atRoot Review.gitCache planLine)).stdout
      = 6 := by
  have hjson : planLine.has .json = false := rfl
  have hne : (shownPlan Review.reviewAtHome atRoot Review.gitCache planLine).categories ≠ [] := by
    decide +kernel
  have hneeded : (shownPlan Review.reviewAtHome atRoot Review.gitCache planLine).neededLines = 6 := by
    decide +kernel
  have hscan : Declaration.Unbroken
      (Review.reviewAtHome.scan atRoot.surroundings Review.gitCache).declarations := by
    decide +kernel
  obtain ⟨_, hexact, hclean⟩ :=
    plan_prints_needed_and_extra_lines Review.reviewAtHome atRoot Review.gitCache planLine false hjson hne
  have hprinted := hclean hscan
  exact ⟨hjson, hne, hscan, hneeded, hexact.mp hprinted, hprinted.trans hneeded⟩

/-- A plan with a category is printed in just the lines it needs. -/
def PrintsNeededLines (r : Review) (env : Environment) (t : Tree) (l : Line) (verbose : Bool) : Prop :=
  l.has .json = false → (shownPlan r env t l).categories ≠ [] →
    breaks (Output.ofResult verbose (runPlan r env t l)).stdout = (shownPlan r env t l).neededLines

def forgingCache : Tree := Review.cacheOf
  "\x7b\"permissions\":\x7b\"git\":\x7b\"rules\":[\"Bash(ls:*)\\n    - Bash(git:*)\"]\x7d\x7d\x7d"

theorem not_printsNeededLines :
    ¬ PrintsNeededLines Review.reviewAtHome atRoot forgingCache planLine false := by
  intro h
  have hjson : planLine.has .json = false := rfl
  have hne : (shownPlan Review.reviewAtHome atRoot forgingCache planLine).categories ≠ [] := by
    decide +kernel
  have hextra : (shownPlan Review.reviewAtHome atRoot forgingCache planLine).extraLines = 1 := by
    decide +kernel
  have hclaimed := h hjson hne
  rw [breaks_stdout_runPlan hjson hne, hextra, Nat.add_eq_left] at hclaimed
  cases hclaimed

end CommandLine

end PluginConsent
