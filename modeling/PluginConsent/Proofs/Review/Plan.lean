import PluginConsent.Proofs.Category
import PluginConsent.Proofs.Category.Filing
import PluginConsent.Proofs.Settings.Frame

namespace PluginConsent

namespace Categories

variable {cs cs' : Categories} {rule : String} {a : Action}

theorem effective?_proposed :
    cs.proposed.effective? rule = some a ↔ Action.Strictest (cs.Suggests rule) a := by
  have hrules : (fun a => rule ∈ cs.proposed.rules a) = cs.Suggests rule :=
    funext fun _ => propext mem_rules_proposed
  rw [Policy.effective?_eq_some_iff, hrules]

/-- One conflict for each rule of the categories that is stored as well, if the most restrictive actions
on both sides differ. -/
structure Clashes (stored : Policy) (cs : Categories) (conflicts : List Conflict) : Prop where
  ascending : IsAscending (conflicts.map Conflict.rule)
  rules : ∀ rule, rule ∈ conflicts.map Conflict.rule ↔
    (∃ c ∈ cs, rule ∈ c.2.rules) ∧ (∃ a, rule ∈ stored.rules a) ∧
      ∀ current proposed, Action.Strictest (fun a => rule ∈ stored.rules a) current →
        Action.Strictest (cs.Suggests rule) proposed → current ≠ proposed
  actions : ∀ c ∈ conflicts, Action.Strictest (fun a => c.rule ∈ stored.rules a) c.current ∧
    Action.Strictest (cs.Suggests c.rule) c.proposed ∧ c.category = Category.guess c.rule

theorem clashes_conflicts (stored : Policy) (cs : Categories) :
    Clashes stored cs (stored.conflicts cs.proposed) := by
  refine ⟨Policy.conflicts_ascending _ _, fun rule => ⟨fun h => ?_, ?_⟩, fun c hc => ?_⟩
  · obtain ⟨c, hc, rfl⟩ := List.mem_map.mp h
    obtain ⟨hcurrent, hproposed, hne, _⟩ := Policy.mem_conflicts.mp hc
    have hstored := Policy.effective?_eq_some_iff.mp hcurrent
    have hsuggests := effective?_proposed.mp hproposed
    obtain ⟨category, hcategory, _, hrule⟩ := hsuggests.1
    refine ⟨⟨category, hcategory, hrule⟩, ⟨_, hstored.1⟩, fun current proposed hs hs' => ?_⟩
    rwa [hs.unique hstored, hs'.unique hsuggests]
  · rintro ⟨⟨category, hcategory, hrule⟩, ⟨a, ha⟩, hne⟩
    cases hcurrent : stored.effective? rule with
    | none => exact absurd ha (Policy.effective?_eq_none_iff.mp hcurrent a)
    | some current =>
        cases hproposed : cs.proposed.effective? rule with
        | none =>
            have hsuggests : cs.Suggests rule category.2.suggested := ⟨category, hcategory, rfl, hrule⟩
            exact absurd (mem_rules_proposed.mpr hsuggests)
              (Policy.effective?_eq_none_iff.mp hproposed _)
        | some proposed =>
            have hdiffer := hne current proposed (Policy.effective?_eq_some_iff.mp hcurrent)
              (effective?_proposed.mp hproposed)
            exact List.mem_map.mpr ⟨⟨rule, current, proposed, Category.guess rule⟩,
              Policy.mem_conflicts.mpr ⟨hcurrent, hproposed, hdiffer, rfl⟩, rfl⟩
  · obtain ⟨hcurrent, hproposed, _, hcategory⟩ := Policy.mem_conflicts.mp hc
    exact ⟨Policy.effective?_eq_some_iff.mp hcurrent, effective?_proposed.mp hproposed, hcategory⟩

def SameRules (cs cs' : Categories) : Prop :=
  ∀ key, (Entries.find? key cs).map Category.rules = (Entries.find? key cs').map Category.rules

theorem sameRules_ofDeclarations (p p' : Preference) (ds : List Declaration) :
    SameRules (ofDeclarations p ds) (ofDeclarations p' ds) := by
  intro key
  rw [find?_ofDeclarations, find?_ofDeclarations, keys_ofDeclarations, keys_ofDeclarations]
  split <;> rfl

end Categories

namespace Choices

variable {choices : Choices} {cs cs' : Categories}

theorem unknown?_congr (h : cs.SameRules cs') : choices.unknown? cs = choices.unknown? cs' := by
  have hnone (key : String) : (Entries.find? key cs).isNone = (Entries.find? key cs').isNone := by
    rw [← Option.isNone_map (f := Category.rules), h key, Option.isNone_map]
  simp only [unknown?, hnone]

theorem rules_eq (choices : Choices) (cs : Categories) (a : Action) : choices.rules cs a =
    (choices.filter fun c => c.2 = a).flatMap fun c =>
      ((Entries.find? c.1 cs).map Category.rules).getD [] := by
  rw [rules]
  congr 1
  funext c
  cases Entries.find? c.1 cs <;> rfl

theorem policy_congr (h : cs.SameRules cs') : choices.policy cs = choices.policy cs' := by
  have hrules (a : Action) : choices.rules cs a = choices.rules cs' a := by
    simp only [rules_eq, h _]
  simp only [policy, hrules]

/-- The rules of the chosen categories, each list under the action that was chosen, in order and each
rule once. -/
structure Files (choices : Choices) (cs : Categories) (p : Policy) : Prop where
  chosen : ∀ a, (p.bucket? a).isSome ↔ ∃ key, (key, a) ∈ choices
  ascending : ∀ a, IsAscending (p.rules a)
  rules : ∀ a rule, rule ∈ p.rules a ↔ ∃ key c, (key, a) ∈ choices ∧
    Entries.find? key cs = some c ∧ rule ∈ c.rules

theorem mem_rules {a : Action} {rule : String} : rule ∈ choices.rules cs a ↔
    ∃ key c, (key, a) ∈ choices ∧ Entries.find? key cs = some c ∧ rule ∈ c.rules := by
  rw [rules_eq, List.mem_flatMap]
  constructor
  · rintro ⟨⟨key, b⟩, hm, hr⟩
    obtain ⟨hchosen, hb⟩ := List.mem_filter.mp hm
    obtain rfl : b = a := of_decide_eq_true hb
    cases hc : Entries.find? key cs with
    | none => simp [hc] at hr
    | some c => exact ⟨key, c, hchosen, hc, by simpa [hc] using hr⟩
  · rintro ⟨key, c, hm, hc, hr⟩
    exact ⟨(key, a), List.mem_filter.mpr ⟨hm, decide_eq_true rfl⟩, by simpa [hc] using hr⟩

theorem rules_policy (choices : Choices) (cs : Categories) (a : Action) :
    (choices.policy cs).rules a = Ascending.ofList (choices.rules cs a) := by
  rw [Policy.rules, policy, Policy.bucket?_ofBuckets]
  split
  · rfl
  · next hnone =>
    have hempty : (choices.filter fun c => c.2 = a) = [] :=
      List.filter_eq_nil_iff.mpr fun c hc ha => hnone (List.any_eq_true.mpr ⟨c, hc, ha⟩)
    rw [rules, hempty]
    rfl

theorem files_policy (choices : Choices) (cs : Categories) : choices.Files cs (choices.policy cs) where
  chosen a := by
    rw [policy, Policy.bucket?_ofBuckets]
    simp
  ascending a := by
    rw [rules_policy]
    exact Ascending.isAscending_ofList _
  rules a rule := by rw [rules_policy, Ascending.mem_ofList, mem_rules]

end Choices

namespace Places

/-- What is left by a write that succeeds: nothing new, if the document stays the same, and otherwise a file
with the text of the new one, which the path then leads to unless the way there leads through what stood
in its place. -/
theorem write_leaves (p : Places) (env : Surroundings) (t : Tree) (scope : Scope) (rules : Policy)
    (s : Strategy) {written : Bool} (h : (p.write env t scope rules s).2 = .ok written) :
    ∃ path, p.path env t scope = .ok path ∧
      let before := Document.read? t env.account env.workingDirectory path
      let after := (before.getD []).apply rules s
      let made := (t.makeDirectories env.workingDirectory (Tree.parentOf path)).1
      let t' := (p.write env t scope rules s).1
      (written = false → t' = t ∧ ∃ d, before = some d ∧ after.Agree d) ∧
      (written = true → ∃ slot,
        made.Replaced env.workingDirectory path (Document.text after).toUTF8 slot t' ∧
        (made.StandsApart env.workingDirectory path → ∃ mode,
          t'.status env.workingDirectory path = .ok (.file (Document.text after).toUTF8 mode))) := by
  obtain ⟨_, path, hpath, hw⟩ := write_ok p env t scope rules s h
  rw [hw] at h ⊢
  refine ⟨path, hpath, fun hfalse => ?_, fun htrue => ?_⟩
  · subst hfalse
    exact ⟨(Update.store_ok_false h).1,
      (isIdle_load_iff env t rules s path).mp (Update.store_ok_false_iff.mp h)⟩
  · subst htrue
    obtain ⟨_, _, slot, hr⟩ := Update.store_ok_true h
    exact ⟨slot, hr, fun ha => ⟨_, hr.status_after ha⟩⟩

end Places

namespace Review

variable (r : Review) (env : Surroundings) (t : Tree) (scope : Scope)

/-- A plan shows the categories of the moment and all they clash with, whatever the categories and the
stored policy are. -/
theorem plan_shows_clashes :
    (∀ stored cs, Categories.Clashes stored cs (stored.conflicts cs.proposed)) ∧
    (r.plan env t scope).categories = r.categories env t ∧
    (r.plan env t scope).conflicts =
      (r.places.read env t scope).conflicts (r.categories env t).proposed ∧
    Categories.Clashes (r.places.read env t scope) (r.plan env t scope).categories
      (r.plan env t scope).conflicts :=
  ⟨Categories.clashes_conflicts, rfl, rfl, Categories.clashes_conflicts _ _⟩

theorem apply_of_preference (p : Preference) (choices : Choices) (s : Strategy) :
    { r with preference := p }.apply env t scope choices s = r.apply env t scope choices s := by
  have hrules : ({ r with preference := p }.categories env t).SameRules (r.categories env t) :=
    Categories.sameRules_ofDeclarations p r.preference _
  rw [apply, apply, Choices.unknown?_congr hrules, Choices.policy_congr hrules]

/-- Choices that are applied have been planned, whatever preference they were planned with, and what is
written are the rules that the plan shows for them. -/
theorem apply_writes_plan (shown : Preference) (choices : Choices) (s : Strategy) :
    let plan := { r with preference := shown }.plan env t scope
    let out := r.apply env t scope choices s
    (∀ written, out.2 = .ok written → choices.Known plan.categories ∧
      ∃ path rules, r.places.path env t scope = .ok path ∧ choices.Files plan.categories rules ∧
        let before := Document.read? t env.account env.workingDirectory path
        let after := (before.getD []).apply rules s
        let made := (t.makeDirectories env.workingDirectory (Tree.parentOf path)).1
        (written = false → out.1 = t ∧ ∃ d, before = some d ∧ after.Agree d) ∧
        (written = true → ∃ slot,
          made.Replaced env.workingDirectory path (Document.text after).toUTF8 slot out.1 ∧
          (made.StandsApart env.workingDirectory path → ∃ mode,
            out.1.status env.workingDirectory path =
              .ok (.file (Document.text after).toUTF8 mode)))) ∧
    { r with preference := shown }.apply env t scope choices s = out := by
  intro plan out
  -- The run with the preference of the plan meets the very categories that the plan shows.
  have hout : { r with preference := shown }.apply env t scope choices s = out :=
    apply_of_preference r env t scope shown choices s
  refine ⟨fun written h => ?_, hout⟩
  rw [← hout] at h ⊢
  cases hu : choices.unknown? plan.categories with
  | some key =>
      rw [apply_unknown _ env t scope s hu] at h
      cases h
  | none =>
      have hknown := Choices.unknown?_eq_none_iff.mp hu
      rw [apply_known _ env t scope s hknown] at h ⊢
      obtain ⟨path, hpath, hleaves⟩ := r.places.write_leaves env t scope _ s h
      exact ⟨hknown, path, _, hpath, Choices.files_policy choices plan.categories, hleaves⟩

def gitManifest : String :=
  "\x7b\"permissions\":\x7b\"git\":\x7b\"rules\":[\"Bash(git:*)\"],\"suggested\":\"allow\"\x7d\x7d\x7d"

def gitCache : Tree := cacheOf gitManifest

def gitOnly : Categories := .ofDeclarations .mostPermissive
  [⟨"p", [("git", .object [("rules", Json.ofStrings ["Bash(git:*)"]), ("suggested", .string "allow")])]⟩]

def gitRules : Policy := ⟨some ["Bash(git:*)"], none, none⟩

variable {r env t} in
theorem apply_git (s : Strategy) (h : r.categories env t = gitOnly) :
    r.apply env t scope [("git", .allow)] s = r.places.write env t scope gitRules s := by
  have hknown : Choices.unknown? [("git", .allow)] gitOnly = none := by decide
  have hpolicy : Choices.policy [("git", .allow)] gitOnly = gitRules := by decide
  rw [apply, h, hknown, hpolicy]

def gitCacheGrown : Tree :=
  (gitCache.makeDirectories .root (Tree.parentOf "/h/.claude/settings.json")).1

theorem standing_gitCacheGrown : gitCacheGrown.Standing ["h", ".claude"] :=
  ((Tree.standing_root _).concat (by decide) (by decide +kernel)).concat (by decide) (by decide +kernel)

theorem standsApart_gitCacheGrown : gitCacheGrown.StandsApart .root "/h/.claude/settings.json" := by
  refine Tree.standsApart_of_standing .root standing_gitCacheGrown Places.isName_settings rfl
    fun e he => ?_
  have hnone : (gitCacheGrown.lookup? (["h", ".claude"] ++ ["settings.json"])).isNone = true := by
    decide +kernel
  rw [he] at hnone
  cases hnone

def reviewAtHome : Review := ⟨Places.atHome, some "/c", .mostPermissive⟩

theorem apply_writes_plan_git :
    let plan := { reviewAtHome with preference := .mostRestrictive }.plan Places.fromRoot gitCache .user
    (reviewAtHome.apply Places.fromRoot gitCache .user [("git", .allow)] .merge).2 = .ok true ∧
    Choices.Known [("git", .allow)] plan.categories ∧
    ∃ rules mode, Choices.Files [("git", .allow)] plan.categories rules ∧
      (reviewAtHome.apply Places.fromRoot gitCache .user [("git", .allow)] .merge).1.status .root
        "/h/.claude/settings.json" =
        .ok (.file (Document.text (Document.apply [] rules .merge)).toUTF8 mode) := by
  have hcategories : reviewAtHome.categories Places.fromRoot gitCache = gitOnly := by decide +kernel
  have hout := (congrArg Prod.snd (apply_git .user .merge hcategories)).trans
    (ok_of_toOption (a := true) (by decide +kernel))
  obtain ⟨hknown, path, rules, hpath, hfiles, _, hwritten⟩ :=
    (apply_writes_plan reviewAtHome Places.fromRoot gitCache .user .mostRestrictive [("git", .allow)]
      .merge).1 true hout
  obtain rfl : "/h/.claude/settings.json" = path := Except.ok.inj hpath
  have hbefore : Document.read? gitCache .owner .root "/h/.claude/settings.json" = none :=
    Option.isNone_iff_eq_none.mp (by decide +kernel)
  obtain ⟨slot, _, hfound⟩ := hwritten rfl
  obtain ⟨mode, hmode⟩ := hfound standsApart_gitCacheGrown
  rw [Places.fromRoot, hbefore] at hmode
  exact ⟨hout, hknown, rules, mode, hfiles, hmode⟩

/-- Whatever applied choices store is then found at the path. -/
def FoundAfterApply (shown : Preference) (choices : Choices) (s : Strategy) : Prop :=
  t.Proper → (r.apply env t scope choices s).2 = .ok true →
    ∃ path rules mode, r.places.path env t scope = .ok path ∧
      choices.Files ({ r with preference := shown }.plan env t scope).categories rules ∧
      (r.apply env t scope choices s).1.status env.workingDirectory path =
        .ok (.file (Document.text (((Document.read? t env.account env.workingDirectory
          path).getD []).apply rules s)).toUTF8 mode)

def selfLinkedCache : Tree :=
  [(["d"], .directory 0o755), (["d", "s"], .directory 0o755), (["d", "s", ".claude"], .directory 0o755),
    (["d", "s", ".claude", "settings.json"], .link "/d"),
    (["h"], .link "/d/s/.claude/settings.json/s")].foldl (fun t e => t.put e.1 e.2) gitCache

theorem not_foundAfterApply : ¬ FoundAfterApply reviewAtHome Places.fromRoot selfLinkedCache .user
    .mostRestrictive [("git", .allow)] .merge := by
  intro h
  have hcategories : reviewAtHome.categories Places.fromRoot selfLinkedCache = gitOnly := by
    decide +kernel
  have happly := apply_git .user .merge hcategories
  have hproper : gitCache.Proper := Tree.proper_ofList (by decide +kernel)
  obtain ⟨path, _, mode, hpath, _, hfile⟩ := h (hproper.foldl_put (by decide +kernel))
    ((congrArg Prod.snd happly).trans (ok_of_toOption (by decide +kernel)))
  obtain rfl : "/h/.claude/settings.json" = path := Except.ok.inj hpath
  have hnone : ((reviewAtHome.places.write Places.fromRoot selfLinkedCache .user gitRules .merge).1.status
      Places.fromRoot.workingDirectory "/h/.claude/settings.json").toOption.isNone = true := by
    decide +kernel
  rw [← happly, hfile] at hnone
  cases hnone

end Review

end PluginConsent
