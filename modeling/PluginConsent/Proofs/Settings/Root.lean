import PluginConsent.Proofs.Files.Lasting
import PluginConsent.Proofs.Settings.ReadBack

namespace PluginConsent

namespace Location

variable {s : Location → Prop} {loc loc' root root' : Location}

/-- The nearest of the directories from one up to the root of the tree that have a property. -/
structure Nearest (s : Location → Prop) (loc root : Location) : Prop where
  above : root <+: loc
  holds : s root
  nearest : ∀ dir, dir <+: loc → s dir → dir <+: root

theorem Nearest.unique (h : Nearest s loc root) (h' : Nearest s loc root') : root = root' := by
  have hle := (h.nearest root' h'.above h'.holds).length_le
  exact (h'.nearest root h.above h.holds).eq_of_length_le hle

theorem Nearest.congr {s' : Location → Prop} (h : Nearest s loc root)
    (hs : ∀ dir, dir <+: loc → (s dir ↔ s' dir)) : Nearest s' loc root :=
  ⟨h.above, (hs root h.above).mp h.holds, fun dir hdir hd => h.nearest dir hdir ((hs dir hdir).mpr hd)⟩

theorem text_injective (hne : loc ≠ []) (hne' : loc' ≠ []) (h : ∀ n ∈ loc, IsName n)
    (h' : ∀ n ∈ loc', IsName n) (he : loc.text = loc'.text) : loc = loc' := by
  have hroute : Route.ofString loc.text = Route.ofString loc'.text := congrArg Route.ofString he
  rw [Route.ofString_text hne fun n hn => (h n hn).2.1,
    Route.ofString_text hne' fun n hn => (h' n hn).2.1] at hroute
  exact List.reverse_inj.mp (congrArg Route.parts hroute)

end Location

namespace Places

open Location (Nearest)

/-- The root of a project, told from which directories hold settings and which hold a repository. -/
inductive Rooted (settings repository : Location → Prop) (cwd : Location) : Location → Prop where
  | settings {root : Location} (h : Nearest settings cwd root) : Rooted settings repository cwd root
  | repository {root : Location} (hnone : ∀ dir, dir <+: cwd → ¬ settings dir)
      (h : Nearest repository cwd root) : Rooted settings repository cwd root
  | itself (hnone : ∀ dir, dir <+: cwd → ¬ settings dir) (hnone' : ∀ dir, dir <+: cwd → ¬ repository dir) :
      Rooted settings repository cwd cwd

/-- The path of an entry of that name in the directory leads to something, links followed. -/
def Holds (t : Tree) (wd : WorkingDirectory) (name : String) (dir : Location) : Prop :=
  ∃ e, t.status wd (Path.join dir.text name) = .ok e

section

variable {settings repository : Location → Prop} {cwd root near : Location}

theorem Rooted.congr {settings' repository' : Location → Prop} (h : Rooted settings repository cwd root)
    (hs : ∀ dir, dir <+: cwd → (settings dir ↔ settings' dir))
    (hr : ∀ dir, dir <+: cwd → (repository dir ↔ repository' dir)) :
    Rooted settings' repository' cwd root := by
  cases h with
  | settings h => exact .settings (h.congr hs)
  | repository hnone h =>
      exact .repository (fun dir hdir hd => hnone dir hdir ((hs dir hdir).mpr hd)) (h.congr hr)
  | itself hnone hnone' =>
      exact .itself (fun dir hdir hd => hnone dir hdir ((hs dir hdir).mpr hd))
        fun dir hdir hd => hnone' dir hdir ((hr dir hdir).mpr hd)

theorem Rooted.eq_iff_of_settings (h : Rooted settings repository cwd root) (hp : near <+: cwd)
    (hs : settings near) : root = near ↔ ∀ dir, dir <+: cwd → settings dir → dir <+: near := by
  cases h with
  | settings h =>
      refine ⟨fun he => he ▸ h.nearest, fun hnearest => h.unique ⟨hp, hs, hnearest⟩⟩
  | repository hnone _ => exact absurd hs (hnone near hp)
  | itself hnone _ => exact absurd hs (hnone near hp)

/-- The two searches find what one search for either would find, unless that holds a repository alone and
settings are held further up. -/
theorem Rooted.eq_nearest_iff (h : Rooted settings repository cwd root)
    (hnear : Nearest (fun dir => settings dir ∨ repository dir) cwd near) :
    root = near ↔ settings near ∨ ∀ dir, dir <+: cwd → ¬ settings dir := by
  have hsettings : settings near → root = near := fun hs =>
    (h.eq_iff_of_settings hnear.above hs).mpr fun dir hdir hd => hnear.nearest dir hdir (.inl hd)
  cases h with
  | settings h =>
      refine ⟨fun he => .inl (he ▸ h.holds), fun hor => hor.elim hsettings fun hnone => ?_⟩
      exact absurd h.holds (hnone root h.above)
  | repository hnone h =>
      refine ⟨fun _ => .inr hnone, fun _ => h.unique ⟨hnear.above, ?_, fun dir hdir hd => ?_⟩⟩
      · exact hnear.holds.resolve_left (hnone near hnear.above)
      · exact hnear.nearest dir hdir (.inr hd)
  | itself hnone hnone' =>
      exact absurd hnear.holds (not_or.mpr ⟨hnone near hnear.above, hnone' near hnear.above⟩)

end

section

variable {t : Tree} {wd : WorkingDirectory} {name : String} {dir loc root cwd : Location}

theorem isPathName_settingsDirectory : Location.IsPathName settingsDirectory := by decide

theorem isPathName_repositoryDirectory : Location.IsPathName repositoryDirectory := by decide

/-- Looking for an entry along the way that led to a directory is asking for it by its path. -/
theorem contains_iff_holds (ht : t.Proper) (hd : t.isDirectoryAt dir = true)
    (hname : Location.IsPathName name) :
    contains t (t.trail dir) name = true ↔ Holds t wd name dir := by
  obtain ⟨_, _, hdot, hlen⟩ := hname.1
  have hstanding := ht.standing hd
  rw [contains_trail_iff, Holds, Location.join_text hstanding.named hname.1, Tree.status,
    Tree.resolve_text (ht.names_place hd hname), Tree.walk_standing true Tree.maxLinks hstanding]
  cases hfits : Location.fits (dir ++ [name]) with
  | false => simp [bind, Except.bind]
  | true =>
      rw [if_pos rfl]
      constructor
      · rintro ⟨_, _, loc, hw⟩
        obtain ⟨e, he, _⟩ := ht.walk_present hd hw
        exact ⟨e, by simp only [hw, bind, Except.bind, Tree.entryAt, he]⟩
      · rintro ⟨e, he⟩
        cases hw : t.walk true Tree.maxLinks dir [name] with
        | error => simp [hw, bind, Except.bind] at he
        | ok target =>
            cases target with
            | present loc =>
                refine ⟨Option.isSome_iff_ne_none.mpr fun hnone => ?_, rfl, loc, rfl⟩
                simp [Tree.walk_name hdot hlen, hnone] at hw
            | vacant => simp [hw, bind, Except.bind, Tree.entryAt] at he
            | removed => exact absurd hw Tree.walk_ne_removed

theorem nearest_of_holder? (h : holder? t name (t.trail loc) = some root) :
    Nearest (fun dir => contains t (t.trail dir) name = true) loc root := by
  obtain ⟨habove, hc⟩ := holder?_eq_some h
  refine ⟨habove, hc, fun dir hdir hd => ?_⟩
  obtain ⟨found, hfound, hp⟩ := exists_holder? hdir hd
  rw [h] at hfound
  cases hfound
  exact hp

theorem not_contains_of_holder? (h : holder? t name (t.trail loc) = none) (dir : Location)
    (hdir : dir <+: loc) : ¬ contains t (t.trail dir) name = true := by
  intro hd
  obtain ⟨found, hfound, _⟩ := exists_holder? hdir hd
  rw [h] at hfound
  cases hfound

theorem rooted_projectRoot (t : Tree) (cwd : Location) :
    Rooted (fun dir => contains t (t.trail dir) settingsDirectory = true)
      (fun dir => contains t (t.trail dir) repositoryDirectory = true) cwd (projectRoot t cwd) := by
  rw [projectRoot]
  cases hs : holder? t settingsDirectory (t.trail cwd) with
  | some root => exact .settings (nearest_of_holder? hs)
  | none =>
      cases hr : holder? t repositoryDirectory (t.trail cwd) with
      | some root => exact .repository (not_contains_of_holder? hs) (nearest_of_holder? hr)
      | none => exact .itself (not_contains_of_holder? hs) (not_contains_of_holder? hr)

theorem settingsFile_injective (h : ∀ n ∈ dir, Location.IsName n) (h' : ∀ n ∈ loc, Location.IsName n)
    (hname : Location.IsName name) (he : settingsFile dir.text name = settingsFile loc.text name) :
    dir = loc := by
  rw [settingsFile_text h hname, settingsFile_text h' hname] at he
  have hnames {up : Location} (hup : ∀ n ∈ up, Location.IsName n) :=
    Location.isName_of_mem_append (Location.isName_of_mem_append hup isName_settingsDirectory) hname
  have hloc := Location.text_injective (by simp) (by simp) (hnames h) (hnames h') he
  exact (List.append_inj' (List.append_inj' hloc rfl).1 rfl).1

end

section

variable (p : Places) {env : Surroundings} {t : Tree} {cwd : Location}

/-- The project directory is the nearest one that holds settings; if none does, the nearest one that holds a
repository; and the working directory itself if there is neither. It is the nearest one that holds either
unless that holds a repository alone while settings are held further up. So if the home directory holds
settings and lies above the working directory, its settings file is the one of the project as well exactly
when no nearer directory holds settings, with a repository or without. -/
theorem projectDirectory_rooted (ht : t.Proper) (hp : p.project = none)
    (hwd : env.workingDirectory.location? = some cwd) (hcwd : t.isDirectoryAt cwd = true) :
    let settings := Holds t env.workingDirectory settingsDirectory
    let repository := Holds t env.workingDirectory repositoryDirectory
    ∃ root, p.projectDirectory env t = .ok root.text ∧ Rooted settings repository cwd root ∧
      (∀ near, Nearest (fun dir => settings dir ∨ repository dir) cwd near →
        (root = near ↔ settings near ∨ ∀ dir, dir <+: cwd → ¬ settings dir)) ∧
      ∀ home : Location, p.homeDirectory env = .ok home.text → home <+: cwd → settings home →
        (p.path env t .project = p.path env t .user ↔
          ∀ dir, dir <+: cwd → settings dir → dir <+: home) := by
  intro settings repository
  have hstanding := ht.standing hcwd
  have hrooted : Rooted settings repository cwd (projectRoot t cwd) :=
    (rooted_projectRoot t cwd).congr
      (fun dir hdir => contains_iff_holds ht (hstanding.directory dir hdir) isPathName_settingsDirectory)
      fun dir hdir => contains_iff_holds ht (hstanding.directory dir hdir) isPathName_repositoryDirectory
  have hdirectory : p.projectDirectory env t = .ok (projectRoot t cwd).text := by
    simp only [projectDirectory, hp, hwd]
  refine ⟨projectRoot t cwd, hdirectory, hrooted, fun near => hrooted.eq_nearest_iff,
    fun home hhome hp hs => ?_⟩
  rw [← hrooted.eq_iff_of_settings hp hs]
  have hfiles : p.path env t .project = p.path env t .user ↔
      settingsFile (projectRoot t cwd).text "settings.json" = settingsFile home.text "settings.json" := by
    simp only [path, hdirectory, hhome, Except.map, Except.ok.injEq]
  rw [hfiles]
  have hnamed {dir : Location} (hdir : dir <+: cwd) := (hstanding.initial hdir).named
  exact ⟨settingsFile_injective (hnamed (projectRoot_initial t cwd)) (hnamed hp) isName_settings,
    fun he => he ▸ rfl⟩

def homeRepository : Tree := .ofList
  [(["h"], .directory 0o755), (["h", ".claude"], .directory 0o755), (["h", "r"], .directory 0o755),
    (["h", "r", ".git"], .directory 0o755)]

def inRepository : Surroundings := ⟨.ofLocation ["h", "r"], none, .owner⟩

theorem proper_homeRepository : homeRepository.Proper := Tree.proper_ofList (by decide +kernel)

theorem holds_home : Holds homeRepository inRepository.workingDirectory settingsDirectory ["h"] :=
  (contains_iff_holds proper_homeRepository (by decide +kernel) isPathName_settingsDirectory).mp
    (by decide +kernel)

theorem holds_repository :
    Holds homeRepository inRepository.workingDirectory repositoryDirectory ["h", "r"] :=
  (contains_iff_holds proper_homeRepository (by decide +kernel) isPathName_repositoryDirectory).mp
    (by decide +kernel)

theorem not_holds_settings :
    ¬ Holds homeRepository inRepository.workingDirectory settingsDirectory ["h", "r"] := by
  rw [← contains_iff_holds proper_homeRepository (by decide +kernel) isPathName_settingsDirectory]
  decide +kernel

theorem projectDirectory_rooted_homeRepository :
    homeRepository.Proper ∧ atHome.project = none ∧
    inRepository.workingDirectory.location? = some ["h", "r"] ∧
    homeRepository.isDirectoryAt ["h", "r"] = true ∧
    atHome.path inRepository homeRepository .project = atHome.path inRepository homeRepository .user := by
  have hcwd : homeRepository.isDirectoryAt ["h", "r"] = true := by decide +kernel
  have hwd : inRepository.workingDirectory.location? = some ["h", "r"] := rfl
  obtain ⟨root, _, _, _, hshared⟩ :=
    projectDirectory_rooted atHome proper_homeRepository rfl hwd hcwd
  refine ⟨proper_homeRepository, rfl, hwd, hcwd, (hshared ["h"] rfl (by decide) holds_home).mpr ?_⟩
  intro dir hdir hd
  rcases List.prefix_concat_iff.mp (show dir <+: ["h"] ++ ["r"] from hdir) with rfl | hdir
  · exact absurd hd not_holds_settings
  · exact hdir

/-- The project directory is the nearest one that holds settings or a repository, if there is one, and the
working directory otherwise. -/
def RootIsNearest (p : Places) (env : Surroundings) (t : Tree) (cwd : Location) : Prop :=
  t.Proper → p.project = none → env.workingDirectory.location? = some cwd → t.isDirectoryAt cwd = true →
    let settings := Holds t env.workingDirectory settingsDirectory
    let repository := Holds t env.workingDirectory repositoryDirectory
    ∃ root : Location, p.projectDirectory env t = .ok root.text ∧
      (Nearest (fun dir => settings dir ∨ repository dir) cwd root ∨
        (∀ dir, dir <+: cwd → ¬ (settings dir ∨ repository dir)) ∧ root = cwd)

theorem not_rootIsNearest : ¬ RootIsNearest atHome inRepository homeRepository ["h", "r"] := by
  intro h
  obtain ⟨root, hdirectory, hroot⟩ := h proper_homeRepository rfl rfl (by decide +kernel)
  have hhome : atHome.projectDirectory inRepository homeRepository = .ok "/h" :=
    ok_of_toOption (by decide +kernel)
  have hcwd : root = ["h", "r"] := by
    rcases hroot with hnearest | ⟨_, hcwd⟩
    · refine hnearest.above.eq_of_length_le ?_
      exact (hnearest.nearest ["h", "r"] List.prefix_rfl (.inr holds_repository)).length_le
    · exact hcwd
  rw [hhome, hcwd] at hdirectory
  exact absurd (Except.ok.inj hdirectory) (by decide)

end

end Places

end PluginConsent
