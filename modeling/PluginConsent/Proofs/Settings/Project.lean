import Mathlib.Data.List.Induction
import PluginConsent.Proofs.Files.Standing
import PluginConsent.Settings.Places

namespace PluginConsent.Places

variable {t t' : Tree} {dir root loc cwd : Location} {name : String}

theorem map_fst_trail (t : Tree) (loc : Location) : (t.trail loc).map Prod.fst = loc.reverse :=
  List.reverse_eq_iff.mp (Tree.location_trail t loc)

theorem contains_trail_iff : contains t (t.trail dir) name = true ↔
    (t.lookup? (dir ++ [name])).isSome = true ∧ Location.fits (dir ++ [name]) = true ∧
      ∃ loc, t.walk true Tree.maxLinks dir [name] = .ok (.present loc) := by
  have he : (((t.trail dir).here t).child name).entry = t.lookup? (dir ++ [name]) := by
    rw [Tree.lookup?_append, Tree.trail_append]
    rfl
  have hfits : Location.fits (name :: (t.trail dir).map Prod.fst) = Location.fits (dir ++ [name]) := by
    rw [map_fst_trail, Location.fits, Location.fits, ← Location.bytes_reverse (dir ++ [name])]
    simp
  have hwalk : (t.follow true Tree.maxLinks (t.trail dir) [name] >>= Target.location).toBool = true ↔
      ∃ loc, t.walk true Tree.maxLinks dir [name] = .ok (.present loc) := by
    rw [Tree.walk]
    cases t.follow true Tree.maxLinks (t.trail dir) [name] with
    | error e => simp [bind, Except.bind, Except.toBool]
    | ok target => cases target <;> simp [bind, Except.bind, Except.toBool, Target.location]
  rw [contains, he, hfits, Bool.and_eq_true, Bool.and_eq_true, hwalk, and_assoc]

theorem contains_of_not_link {e : Entry} (hname : Location.IsName name)
    (hfits : Location.fits (dir ++ [name]) = true) (he : t.lookup? (dir ++ [name]) = some e)
    (hlink : e.isLink = false) : contains t (t.trail dir) name = true := by
  refine contains_trail_iff.mpr ⟨by rw [he]; rfl, hfits, dir ++ [name], ?_⟩
  rw [Tree.walk_name hname.2.2.1 hname.2.2.2, he]
  cases e with
  | file => rfl
  | directory => exact Tree.walk_nil
  | link => cases hlink
  | pipe => rfl

theorem holder?_concat (t : Tree) (name : String) (loc : Location) (last : String) :
    holder? t name (t.trail (loc ++ [last])) =
      if contains t (t.trail (loc ++ [last])) name then some (loc ++ [last])
      else holder? t name (t.trail loc) := by
  have hloc : Trail.location ((t.trail loc).onward t last) = loc ++ [last] := by
    rw [← Tree.trail_append, Tree.location_trail]
  rw [Tree.trail_append]
  rw [← hloc]
  rfl

theorem holder?_eq_some (h : holder? t name (t.trail loc) = some root) :
    root <+: loc ∧ contains t (t.trail root) name = true := by
  induction loc using List.reverseRecOn with
  | nil =>
      rw [Tree.trail, List.foldl_nil, holder?] at h
      split at h
      · next hc => cases h; exact ⟨List.prefix_rfl, hc⟩
      · cases h
  | append_singleton loc last ih =>
      rw [holder?_concat] at h
      split at h
      · next hc => cases h; exact ⟨List.prefix_rfl, hc⟩
      · exact ⟨(ih h).1.trans (List.prefix_append _ _), (ih h).2⟩

theorem exists_holder? (hp : dir <+: loc) (hc : contains t (t.trail dir) name = true) :
    ∃ root, holder? t name (t.trail loc) = some root ∧ dir <+: root := by
  induction loc using List.reverseRecOn with
  | nil =>
      obtain rfl := List.prefix_nil.mp hp
      exact ⟨[], if_pos hc, List.prefix_rfl⟩
  | append_singleton loc last ih =>
      rw [holder?_concat]
      split
      · exact ⟨_, rfl, hp⟩
      · next hn =>
        rcases List.prefix_concat_iff.mp hp with rfl | hp
        · exact absurd hc hn
        · exact ih hp

structure Beyond (root loc dir : Location) : Prop where
  above : root <+: dir
  below : dir <+: loc
  ne : dir ≠ root

theorem projectRoot_initial (t : Tree) (cwd : Location) : projectRoot t cwd <+: cwd := by
  rw [projectRoot]
  cases hs : holder? t settingsDirectory (t.trail cwd) with
  | some root => exact (holder?_eq_some hs).1
  | none =>
      cases hr : holder? t repositoryDirectory (t.trail cwd) with
      | some root => exact (holder?_eq_some hr).1
      | none => exact List.prefix_rfl

theorem contains_beyond (h : Beyond (projectRoot t cwd) cwd dir) :
    contains t (t.trail dir) settingsDirectory = false := by
  rw [← Bool.not_eq_true]
  intro hc
  obtain ⟨root, hroot, hp⟩ := exists_holder? h.below hc
  have heq : projectRoot t cwd = root := by simp [projectRoot, hroot]
  obtain ⟨above, _, hne⟩ := h
  rw [heq] at above hne
  exact hne (hp.eq_of_length_le above.length_le)

theorem projectRoot_eq (hp : root <+: cwd) (hc : contains t (t.trail root) settingsDirectory = true)
    (hn : ∀ dir, Beyond root cwd dir → contains t (t.trail dir) settingsDirectory = false) :
    projectRoot t cwd = root := by
  obtain ⟨found, hfound, habove⟩ := exists_holder? hp hc
  have heq : projectRoot t cwd = found := by simp [projectRoot, hfound]
  rw [heq]
  obtain ⟨hbelow, hcontains⟩ := holder?_eq_some hfound
  by_contra hne
  rw [hn found ⟨habove, hbelow, hne⟩] at hcontains
  cases hcontains

theorem isName_settingsDirectory : Location.IsName settingsDirectory := by decide

theorem isName_settings : Location.IsName "settings.json" := by decide

theorem isName_localSettings : Location.IsName "settings.local.json" := by decide

theorem settingsFile_text (h : ∀ n ∈ root, Location.IsName n) (hname : Location.IsName name) :
    settingsFile root.text name = Location.text (root ++ [settingsDirectory] ++ [name]) := by
  rw [settingsFile, Location.join_text h isName_settingsDirectory, Location.join_text
    (Location.isName_of_mem_append h isName_settingsDirectory) hname]

theorem fits_of_checkPath {path : String} (h : Tree.checkPath path = .ok ()) :
    path.utf8ByteSize ≤ Path.maxBytes := by
  simp only [Tree.checkPath, bind, Except.bind, pure, Except.pure, throw, throwThe,
    MonadExceptOf.throw] at h
  split at h
  · cases h
  · split at h
    · cases h
    · next hf => simpa [Path.fits] using hf

theorem contains_of_slot {wd : WorkingDirectory} {s : Tree.Slot} (hroot : t.Standing root)
    (hname : Location.IsName name)
    (hcheck : Tree.checkPath (settingsFile root.text name) = .ok ())
    (hs : t.slot wd (.ofString (settingsFile root.text name)) = .ok (some s)) :
    s.name = name ∧ contains t (t.trail root) settingsDirectory = true := by
  have hall := Location.isName_of_mem_append hroot.named isName_settingsDirectory
  have hall' := Location.isName_of_mem_append hall hname
  rw [settingsFile_text hroot.named hname] at hcheck hs
  rw [Route.ofString_text (by simp) fun n hn => (hall' n hn).2.1] at hs
  obtain ⟨names, links, hnames, _, _, hl⟩ := Tree.slot_eq_some_iff.mp hs
  rw [Route.names_reverse fun n hn => (hall' n hn).1] at hnames
  obtain ⟨rfl, hlast⟩ := List.append_inj' hnames rfl
  have hwalk : t.walk true Tree.maxLinks root [settingsDirectory] = .ok (.present s.dir) := by
    have hl := Tree.leadsFrom_root_iff.mp hl
    rw [← Tree.walk_standing _ _ hroot, ← List.append_nil (root ++ _), hl.walk_append, Tree.walk_nil]
  refine ⟨(List.head_eq_of_cons_eq hlast).symm, contains_trail_iff.mpr ⟨?_, ?_, _, hwalk⟩⟩
  · rw [Tree.walk_name (by decide) (by decide)] at hwalk
    cases he : t.lookup? (root ++ [settingsDirectory]) with
    | some e => rfl
    | none => simp [he] at hwalk
  · have hbytes := fits_of_checkPath hcheck
    rw [Location.utf8ByteSize_text (by simp), Location.bytes_append] at hbytes
    simp only [Location.fits, decide_eq_true_eq]
    omega

/-- The working directory is reached through directories, and no link for a settings directory between
it and the project root comes to life. -/
def RootSettled (env : Surroundings) (t t' : Tree) : Prop :=
  ∀ cwd, env.workingDirectory.location? = some cwd → t.Standing cwd ∧
    ∀ dir target, Beyond (projectRoot t cwd) cwd dir →
      t.lookup? (dir ++ [settingsDirectory]) = some (.link target) →
      contains t' (t'.trail dir) settingsDirectory = false

theorem projectRoot_replaced {wd : WorkingDirectory} {content : ByteArray} {s : Tree.Slot}
    {path : String} (hcwd : t.Standing cwd) (hname : Location.IsName name)
    (hne : name ≠ settingsDirectory) (hpath : path = settingsFile (projectRoot t cwd).text name)
    (hr : Tree.Replaced (t.makeDirectories wd (Tree.parentOf path)).1 wd path content s t')
    (hs : t'.slot wd (.ofString path) = .ok (some s))
    (hdead : ∀ dir target, Beyond (projectRoot t cwd) cwd dir →
      t.lookup? (dir ++ [settingsDirectory]) = some (.link target) →
      contains t' (t'.trail dir) settingsDirectory = false) :
    projectRoot t' cwd = projectRoot t cwd := by
  have hp := projectRoot_initial t cwd
  have hroot := hcwd.initial hp
  generalize hr' : projectRoot t cwd = root at *
  have hgrown := Tree.grown_makeDirectories t wd (Tree.parentOf path)
  have hroot' : t'.Standing root := (hroot.grown hgrown).mono fun _ => hr.isDirectoryAt
  have hcheck := hr.usable
  subst hpath
  obtain ⟨hsname, hcontains⟩ := contains_of_slot hroot' hname hcheck hs
  refine projectRoot_eq hp hcontains fun dir hbeyond => ?_
  -- All that is new is the file and at most one directory, and neither is there.
  have hsame : t'.lookup? (dir ++ [settingsDirectory]) = t.lookup? (dir ++ [settingsDirectory]) := by
    have hfile : dir ++ [settingsDirectory] ≠ s.location := by
      intro he
      have hlast := List.head_eq_of_cons_eq (List.append_inj' he rfl).2
      exact hne (hsname ▸ hlast.symm)
    have hdirectory : dir ++ [settingsDirectory] ≠ root ++ [settingsDirectory] :=
      fun he => hbeyond.ne (List.append_inj' he rfl).1
    have hparent : Tree.parentOf (settingsFile root.text name) =
        Location.text (root ++ [settingsDirectory]) := by
      rw [settingsFile_text hroot.named hname, Location.parentOf_text (by simp)
        (Location.isName_of_mem_append hroot.named isName_settingsDirectory) hname]
    have hslot := Tree.slot_standing wd hroot isName_settingsDirectory
    rw [hr.other _ hfile, hparent, Tree.lookup?_makeDirectories_of_ne hslot hdirectory]
  rw [← Bool.not_eq_true]
  intro hc
  obtain ⟨hsome, hfits, _⟩ := contains_trail_iff.mp hc
  rw [hsame] at hsome
  obtain ⟨e, he⟩ := Option.isSome_iff_exists.mp hsome
  cases hlink : e.isLink with
  | true =>
      cases e <;> cases hlink
      rw [hdead dir _ hbeyond he] at hc
      cases hc
  | false =>
      subst hr'
      have hc' := contains_of_not_link isName_settingsDirectory hfits he hlink
      rw [contains_beyond hbeyond] at hc'
      cases hc'

section

variable {p : Places} {env : Surroundings} {path directory : String} {content : ByteArray}
  {s : Tree.Slot}

theorem projectFile_replaced (hname : Location.IsName name) (hne : name ≠ settingsDirectory)
    (hpath : (p.projectDirectory env t).map (settingsFile · name) = .ok path)
    (hr : Tree.Replaced (t.makeDirectories env.workingDirectory (Tree.parentOf path)).1
      env.workingDirectory path content s t')
    (hs : t'.slot env.workingDirectory (.ofString path) = .ok (some s))
    (hsettled : p.project = none → RootSettled env t t') :
    (p.projectDirectory env t').map (settingsFile · name) = .ok path := by
  rw [projectDirectory] at hpath ⊢
  cases hp : p.project with
  | some project => simpa [hp] using hpath
  | none =>
      cases hc : env.workingDirectory.location? with
      | none => simp [hp, hc, Except.map] at hpath
      | some cwd =>
          simp only [hp, hc, Except.map, Except.ok.injEq] at hpath ⊢
          obtain ⟨hcwd, hdead⟩ := hsettled hp cwd hc
          rw [projectRoot_replaced hcwd hname hne hpath.symm hr hs hdead, hpath]

theorem path_replaced {scope : Scope} (hpath : p.path env t scope = .ok path)
    (hr : Tree.Replaced (t.makeDirectories env.workingDirectory (Tree.parentOf path)).1
      env.workingDirectory path content s t')
    (hs : t'.slot env.workingDirectory (.ofString path) = .ok (some s))
    (hsettled : p.project = none → scope ≠ .user → RootSettled env t t') :
    p.path env t' scope = .ok path := by
  cases scope with
  | user => exact hpath
  | project =>
      exact projectFile_replaced isName_settings (by simp [settingsDirectory]) hpath hr hs
        fun hp => hsettled hp (by simp)
  | «local» =>
      exact projectFile_replaced isName_localSettings (by simp [settingsDirectory]) hpath hr hs
        fun hp => hsettled hp (by simp)

end

end PluginConsent.Places
