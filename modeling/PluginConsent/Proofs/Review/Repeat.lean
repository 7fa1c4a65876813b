import PluginConsent.Proofs.Review.Plan
import PluginConsent.Proofs.Scan.Declares
import PluginConsent.Proofs.Settings.Clean
import PluginConsent.Proofs.Settings.Repeat

namespace PluginConsent

theorem Choices.Known.eq_nil {choices : Choices} (h : choices.Known []) : choices = [] := by
  cases choices with
  | nil => rfl
  | cons c choices => exact absurd (h c.1 (by simp [Entries.keys])) (by simp [Entries.keys])

/-- What is kept when settings are stored: the way to everything else, and the manifests. -/
structure Tree.Preserved (t t' : Tree) : Prop where
  within : Within t t'
  manifests : t.SameManifests t'
  proper : t'.Proper

theorem Places.preserved_of_replaced {p : Places} {env : Surroundings} {t t' : Tree} {scope : Scope}
    {path : String} {content : ByteArray} {slot : Tree.Slot} (ht : t.Proper)
    (hcwd : t.isDirectoryAt env.workingDirectory.nearest = true)
    (hpath : p.path env t scope = .ok path)
    (hlink : ∀ target, (t.makeDirectories env.workingDirectory (Tree.parentOf path)).1.linkStatus
      env.workingDirectory path ≠ .ok (.link target))
    (hr : (t.makeDirectories env.workingDirectory (Tree.parentOf path)).1.Replaced
      env.workingDirectory path content slot t') : t.Preserved t' := by
  have hgrown := Tree.grown_makeDirectories t env.workingDirectory (Tree.parentOf path)
  have hmade := ht.makeDirectories hcwd (Tree.parentOf path)
  have hname : slot.name ≠ Manifest.fileName := by
    have hname : slot.name ∈ fileNames := name_of_slot hpath hr.slot hr.slash
    intro he
    rw [he] at hname
    exact absurd hname (by decide)
  refine ⟨fun loc e he hp => hr.within hlink loc e (hgrown.kept he) hp,
    hgrown.sameManifests.trans (hr.sameManifests hname), hr.proper hmade (hgrown.isDirectoryAt hcwd)⟩

namespace Review

variable {r : Review} {env : Surroundings} {t t' : Tree} {choices : Choices}

theorem scan_preserved (ht : t.Proper) (hcwd : t.isDirectoryAt env.workingDirectory.nearest = true)
    (h : t.Preserved t') : (r.scan env t).declarations = [] ∨
      (r.scan env t).declarations = (r.scan env t').declarations := by
  rw [scan, scan]
  cases r.cache with
  | none => exact .inl rfl
  | some root => exact Tree.scanned_declarations ht h.proper hcwd h.within h.manifests root

theorem choices_preserved (h : (r.scan env t).declarations = [] ∨
      (r.scan env t).declarations = (r.scan env t').declarations)
    (hk : choices.Known (r.categories env t)) : choices.Known (r.categories env t') ∧
      choices.policy (r.categories env t') = choices.policy (r.categories env t) := by
  rcases h with hnone | hsame
  · have hempty : r.categories env t = [] := by
      rw [categories, hnone]
      rfl
    rw [hempty] at hk ⊢
    rw [hk.eq_nil]
    exact ⟨by simp [Choices.Known, Entries.keys], rfl⟩
  · rw [categories, ← hsame]
    exact ⟨hk, rfl⟩

theorem apply_ok {scope : Scope} {s : Strategy} {written : Bool}
    (h : (r.apply env t scope choices s).2 = .ok written) : choices.Known (r.categories env t) ∧
      r.apply env t scope choices s =
        r.places.write env t scope (choices.policy (r.categories env t)) s := by
  cases hu : choices.unknown? (r.categories env t) with
  | some key =>
      rw [apply_unknown _ env t scope s hu] at h
      cases h
  | none =>
      have hknown := Choices.unknown?_eq_none_iff.mp hu
      exact ⟨hknown, apply_known r env t scope s hknown⟩

/-- A request that succeeds has nothing to do when it is made again, if what it stored is kept. -/
structure Repeats (t : Tree) (request : Tree → Tree × Except WriteError Bool) (kept : Tree → Prop) :
    Prop where
  unchanged : (request t).2 = .ok false → (request t).1 = t ∧ request (request t).1 = (t, .ok false)
  stored : (request t).2 = .ok true → kept (request t).1 →
    request (request t).1 = ((request t).1, .ok false)

section

variable {scope : Scope} {s : Strategy} {path : String} {mode : Nat}

/-- The place of a scope leads to a file with a document, which can be read back from it. -/
structure Keeps (r : Review) (env : Surroundings) (scope : Scope) (d : Document) (mode : Nat)
    (t : Tree) : Prop where
  retained : d.Retained
  mayRead : env.account.mayRead mode = true
  finds : r.places.Finds env t scope (.file (Document.text d).toUTF8 mode)

theorem Keeps.write_eq {rules : Policy} (hs : rules.Storable) {d : Document}
    (h : r.Keeps env scope (d.apply rules s) mode t) :
    r.places.write env t scope rules s = (t, .ok false) :=
  Places.write_found hs h.retained h.mayRead h.finds

theorem repeats_write (rules : Policy) : Repeats t (r.write env · scope rules s)
    (r.Keeps env scope (Update.load t env.account env.workingDirectory path rules s).after mode) where
  unchanged h := by
    have hidle := Places.write_unchanged h
    simp only [write, hidle, and_self]
  stored h hkept := hkept.write_eq (Places.storable_of_write_ok _ env t scope rules s h)

/-- The second time, the categories may be others only if there were none, and then nothing was chosen. -/
theorem repeats_apply (ht : t.Proper) (hcwd : t.isDirectoryAt env.workingDirectory.nearest = true)
    (hpath : r.places.path env t scope = .ok path)
    (hlink : ∀ target, (t.makeDirectories env.workingDirectory (Tree.parentOf path)).1.linkStatus
      env.workingDirectory path ≠ .ok (.link target)) (choices : Choices) :
    Repeats t (r.apply env · scope choices s) (r.Keeps env scope (Update.load t env.account
      env.workingDirectory path (choices.policy (r.categories env t)) s).after mode) where
  unchanged h := by
    obtain ⟨_, happly⟩ := apply_ok h
    rw [happly] at h
    have hidle := happly.trans (Places.write_unchanged h)
    exact ⟨by rw [hidle], by rw [hidle, hidle]⟩
  stored h hkept := by
    obtain ⟨hknown, happly⟩ := apply_ok h
    rw [happly] at h hkept ⊢
    obtain ⟨slot, hr⟩ := Places.write_replaced hpath h
    have hpreserved := Places.preserved_of_replaced ht hcwd hpath hlink hr
    obtain ⟨hknown', hpolicy⟩ := choices_preserved (scan_preserved ht hcwd hpreserved) hknown
    rw [apply_known r env _ scope s hknown', hpolicy]
    exact hkept.write_eq (Places.storable_of_write_ok _ env t scope _ s h)

end

/-- Rules that were written, or choices that were applied where no link is replaced, change nothing when
that is done again, if the place of the scope then leads to the file that holds them and that can be read.
It does lead there unless the way leads through what the file replaced or the project root is found
elsewhere; and the file has the mode of what was there before. -/
theorem repeats_change_nothing (r : Review) (env : Surroundings) (t : Tree) (scope : Scope) (s : Strategy)
    {path : String} (hpath : r.places.path env t scope = .ok path) :
    let cwd := env.workingDirectory
    let made := (t.makeDirectories cwd (Tree.parentOf path)).1
    let mode := made.modeFor cwd path
    let after := fun rules => (Update.load t env.account cwd path rules s).after
    let found := fun rules t' =>
      r.places.Finds env t' scope (.file (Document.text (after rules)).toUTF8 mode)
    let kept := fun rules => r.Keeps env scope (after rules) mode
    let settled := fun t' => r.places.project = none → scope ≠ .user → Places.RootSettled env t t'
    (∀ rules, Repeats t (r.write env · scope rules s) (kept rules) ∧
      let out := r.write env t scope rules s
      (out.2 = .ok true → made.StandsApart cwd path → settled out.1 → found rules out.1)) ∧
    (t.Proper → t.isDirectoryAt cwd.nearest = true →
      (∀ target, made.linkStatus cwd path ≠ .ok (.link target)) → ∀ choices,
      let rules := choices.policy (r.categories env t)
      Repeats t (r.apply env · scope choices s) (kept rules) ∧
      let out := r.apply env t scope choices s
      (out.2 = .ok true → settled out.1 → found rules out.1)) := by
  intro cwd made mode after found kept settled
  refine ⟨fun rules => ⟨repeats_write rules, Places.finds_written hpath⟩,
    fun ht hcwd hlink choices => ⟨repeats_apply ht hcwd hpath hlink choices, fun h hsettled => ?_⟩⟩
  obtain ⟨_, happly⟩ := apply_ok h
  rw [happly] at h hsettled ⊢
  obtain ⟨slot, hr⟩ := Places.write_replaced hpath h
  exact Places.finds_written hpath h (hr.standsApart hlink) hsettled

theorem repeats_change_nothing_git :
    let request := fun t => reviewAtHome.write Places.fromRoot t .user gitRules .merge
    let choice := fun t => reviewAtHome.apply Places.fromRoot t .user [("git", .allow)] .merge
    (request gitCache).2 = .ok true ∧ request (request gitCache).1 = ((request gitCache).1, .ok false) ∧
    (choice gitCache).2 = .ok true ∧ choice (choice gitCache).1 = ((choice gitCache).1, .ok false) := by
  intro request choice
  have hcategories : reviewAtHome.categories Places.fromRoot gitCache = gitOnly := by decide +kernel
  have hpolicy : Choices.policy [("git", .allow)] gitOnly = gitRules := by decide
  have hwritten : (request gitCache).2 = .ok true := ok_of_toOption (by decide +kernel)
  have happlied : (choice gitCache).2 = .ok true :=
    (congrArg Prod.snd (apply_git .user .merge hcategories)).trans hwritten
  have hbefore : Document.read? gitCache .owner .root "/h/.claude/settings.json" = none :=
    Option.isNone_iff_eq_none.mp (by decide +kernel)
  have hretained : (Update.load gitCache .owner .root "/h/.claude/settings.json" gitRules
      .merge).after.Retained := by
    rw [Update.load, hbefore]
    exact Document.Legible.retained ⟨by decide, rfl⟩
  have hlink (target : String) :
      gitCacheGrown.linkStatus .root "/h/.claude/settings.json" ≠ .ok (.link target) :=
    ne_ok_of_toOption (by decide +kernel) _
  have hpath : reviewAtHome.places.path Places.fromRoot gitCache .user =
      .ok "/h/.claude/settings.json" := rfl
  obtain ⟨hwrites, happlies⟩ := repeats_change_nothing reviewAtHome Places.fromRoot gitCache .user .merge
    hpath
  obtain ⟨hwrite, hfound⟩ := hwrites gitRules
  obtain ⟨happly, hfound'⟩ := happlies (Tree.proper_ofList (by decide +kernel)) rfl hlink
    [("git", .allow)]
  rw [hcategories, hpolicy] at happly hfound'
  have hsettled (t' : Tree) : reviewAtHome.places.project = none → Scope.user ≠ .user →
      Places.RootSettled Places.fromRoot gitCache t' := fun _ h => absurd rfl h
  have hmay : Account.owner.mayRead (gitCacheGrown.modeFor .root "/h/.claude/settings.json") = true := by
    decide +kernel
  exact ⟨hwritten,
    hwrite.stored hwritten ⟨hretained, hmay, hfound hwritten standsApart_gitCacheGrown (hsettled _)⟩,
    happlied, happly.stored happlied ⟨hretained, hmay, hfound' happlied (hsettled _)⟩⟩

/-- After a write that succeeds the same write has nothing to do, wherever its path then leads. -/
def WriteRepeats (p : Places) (env : Surroundings) (t : Tree) (scope : Scope) (rules : Policy)
    (s : Strategy) : Prop :=
  t.Proper → ∀ path written, p.path env t scope = .ok path →
    (p.write env t scope rules s).2 = .ok written →
    (Update.load t env.account env.workingDirectory path rules s).after.Retained →
    p.write env (p.write env t scope rules s).1 scope rules s =
      ((p.write env t scope rules s).1, .ok false)

/-- Likewise for choices, if the path is not that of a link before anything is made. -/
def ApplyRepeats (r : Review) (env : Surroundings) (t : Tree) (scope : Scope) (choices : Choices)
    (s : Strategy) : Prop :=
  t.Proper → ∀ path written, r.places.path env t scope = .ok path →
    (∀ target, t.linkStatus env.workingDirectory path ≠ .ok (.link target)) →
    (r.apply env t scope choices s).2 = .ok written →
    (Update.load t env.account env.workingDirectory path (choices.policy (r.categories env t))
      s).after.Retained →
    r.apply env (r.apply env t scope choices s).1 scope choices s =
      ((r.apply env t scope choices s).1, .ok false)

/-- The cache is found through a link that stands where the settings file belongs, but the path of that
file leads nowhere until there is a directory for it to come back from. -/
def linkedCache : Tree :=
  [(["h"], .directory 0o755), (["h", ".claude"], .directory 0o755),
    (["h", ".claude", "settings.json"], .link "/c")].foldl (fun t e => t.put e.1 e.2) gitCache

def reviewThroughLink : Review :=
  ⟨⟨some "/new/../h", none, none⟩, some "/h/.claude/settings.json", .mostPermissive⟩

theorem retained_readAnything {path : String}
    (h : (t.readFile env.account env.workingDirectory path).toOption.isNone = true) :
    (Update.load t env.account env.workingDirectory path Places.readAnything .merge).after.Retained := by
  rw [Places.load_readAnything env t h]
  exact Document.Legible.retained ⟨by decide, rfl⟩

theorem not_writeRepeats_deadLinked :
    ¬ WriteRepeats ⟨none, none, none⟩ Places.inNested Places.deadLinked .project Places.readAnything
      .merge := by
  intro h
  have hwritten : (Places.write ⟨none, none, none⟩ Places.inNested Places.deadLinked .project
      Places.readAnything .merge).2 = .ok true := ok_of_toOption (by decide +kernel)
  have hagain := h (Tree.proper_ofList (by decide +kernel)) "/a/.claude/settings.json" true
    (ok_of_toOption (by decide +kernel)) hwritten (retained_readAnything (by decide +kernel))
  exact ne_ok_of_toOption (by decide +kernel) false (congrArg Prod.snd hagain)

theorem not_writeRepeats_locked : ¬ WriteRepeats Places.atHome Places.fromRoot Places.lockedSettings .user
    Places.readAnything .merge := by
  intro h
  have hwritten : (Places.atHome.write Places.fromRoot Places.lockedSettings .user Places.readAnything
      .merge).2 = .ok true := ok_of_toOption (by decide +kernel)
  have hagain := h (Tree.proper_ofList (by decide +kernel)) "/h/.claude/settings.json" true rfl hwritten
    (retained_readAnything (by decide +kernel))
  exact Places.write_unread rfl (by decide +kernel) (fun hagree => by cases hagree "allow")
    (congrArg Prod.snd hagain)

theorem not_applyRepeats :
    ¬ ApplyRepeats reviewThroughLink Places.fromRoot linkedCache .user [("git", .allow)] .merge := by
  intro h
  have hcategories : reviewThroughLink.categories Places.fromRoot linkedCache = gitOnly := by
    decide +kernel
  have happly := apply_git .user .merge hcategories
  have hproper : linkedCache.Proper :=
    (Tree.proper_ofList (by decide +kernel) : gitCache.Proper).foldl_put (by decide +kernel)
  have hwritten : (reviewThroughLink.places.write Places.fromRoot linkedCache .user gitRules .merge).2 =
      .ok true := ok_of_toOption (by decide +kernel)
  have hlink (target : String) :
      linkedCache.linkStatus .root "/new/../h/.claude/settings.json" ≠ .ok (.link target) :=
    ne_ok_of_toOption (by decide +kernel) _
  have hbefore : Document.read? linkedCache .owner .root "/new/../h/.claude/settings.json" = none :=
    Option.isNone_iff_eq_none.mp (by decide +kernel)
  have hretained : (Update.load linkedCache .owner .root "/new/../h/.claude/settings.json"
      (Choices.policy [("git", .allow)] (reviewThroughLink.categories Places.fromRoot linkedCache))
      .merge).after.Retained := by
    rw [hcategories, Update.load, hbefore]
    exact Document.Legible.retained ⟨by decide, rfl⟩
  have hagain := h hproper "/new/../h/.claude/settings.json" true rfl hlink
    ((congrArg Prod.snd happly).trans hwritten) hretained
  rw [happly] at hagain
  exact ne_ok_of_toOption (by decide +kernel) false (congrArg Prod.snd hagain)

theorem not_repeats :
    ¬ WriteRepeats ⟨none, none, none⟩ Places.inNested Places.deadLinked .project Places.readAnything
      .merge ∧
    ¬ WriteRepeats Places.atHome Places.fromRoot Places.lockedSettings .user Places.readAnything .merge ∧
    ¬ ApplyRepeats reviewThroughLink Places.fromRoot linkedCache .user [("git", .allow)] .merge :=
  ⟨not_writeRepeats_deadLinked, not_writeRepeats_locked, not_applyRepeats⟩

end Review

end PluginConsent
