import PluginConsent.Proofs.Scan

namespace PluginConsent

def Alike (e e' : Option Entry) : Prop :=
  e = e' ∨ ∃ target target', e = some (.link target) ∧ e' = some (.link target')

namespace Alike

variable {e e' : Option Entry}

theorem symm (h : Alike e e') : Alike e' e := by
  rcases h with rfl | ⟨target, target', he, he'⟩
  · exact .inl rfl
  · exact .inr ⟨target', target, he', he⟩

theorem exists_link (h : Alike e e') (hlink : ∃ target, e = some (.link target)) :
    ∃ target, e' = some (.link target) := by
  rcases h with rfl | ⟨_, target', _, he'⟩
  · exact hlink
  · exact ⟨target', he'⟩

theorem ne_none (h : Alike e e') (hne : e ≠ none) : e' ≠ none := by
  rcases h with rfl | ⟨_, _, _, rfl⟩
  · exact hne
  · exact Option.some_ne_none _

end Alike

namespace Tree

def AlikeBelow (t t' : Tree) (cache : Location) : Prop :=
  ∀ loc, cache <+: loc → loc ≠ cache → Alike (t.lookup? loc) (t'.lookup? loc)

section

variable {t t' : Tree} {cache loc dir : Location} {market plugin : String}

theorem AlikeBelow.symm (h : t.AlikeBelow t' cache) : t'.AlikeBelow t cache :=
  fun loc hp hne => (h loc hp hne).symm

theorem AlikeBelow.entry (h : t.AlikeBelow t' cache) (hp : cache <+: dir) (name : String) :
    Alike (t.lookup? (dir ++ [name])) (t'.lookup? (dir ++ [name])) := by
  refine h _ (hp.trans (List.prefix_append _ _)) fun he => ?_
  rw [← he] at hp
  exact Location.not_below_prefix dir name hp

theorem AlikeBelow.isDirectoryAt (h : t.AlikeBelow t' cache) (hp : cache <+: dir) (name : String) :
    t.isDirectoryAt (dir ++ [name]) = t'.isDirectoryAt (dir ++ [name]) := by
  rw [Tree.isDirectoryAt, Tree.isDirectoryAt]
  rcases h.entry hp name with he | ⟨_, _, he, he'⟩
  · rw [he]
  · rw [he, he']
    rfl

theorem AlikeBelow.isShelf (h : t.AlikeBelow t' cache) (hs : t.IsShelf cache dir) :
    t'.IsShelf cache dir := by
  rcases hs with rfl | ⟨market, rfl, hm⟩
  · exact .inl rfl
  · exact .inr ⟨market, rfl, by rwa [← h.isDirectoryAt List.prefix_rfl market]⟩

theorem IsShelf.initial (hs : t.IsShelf cache dir) : cache <+: dir := by
  rcases hs with rfl | ⟨market, rfl, _⟩
  · exact List.prefix_rfl
  · exact List.prefix_append _ _

theorem AlikeBelow.isShelvedLink {usable : Location → Bool} (h : t.AlikeBelow t' cache)
    (hl : t.IsShelvedLink usable cache loc) : t'.IsShelvedLink usable cache loc := by
  obtain ⟨dir, name, target, hshelf, husable, rfl, hlook⟩ := hl
  obtain ⟨target', hlook'⟩ := (h.entry hshelf.initial name).exists_link ⟨target, hlook⟩
  exact ⟨dir, name, target', h.isShelf hshelf, husable, rfl, hlook'⟩

theorem AlikeBelow.isPluginIn {usable : Location → Bool} (h : t.AlikeBelow t' cache)
    (hp : t.IsPluginIn usable cache market plugin) : t'.IsPluginIn usable cache market plugin := by
  have hmarket : cache <+: cache ++ [market] := List.prefix_append _ _
  have hplugin := hmarket.trans (List.prefix_append _ [plugin])
  refine ⟨?_, ?_, (h.entry hplugin _).ne_none hp.marked, hp.usable⟩
  · rw [← h.isDirectoryAt List.prefix_rfl]
    exact hp.outer
  · rw [← h.isDirectoryAt hmarket]
    exact hp.inner

end

end Tree

namespace Manifest

variable {t t' : Tree} {who : Account} {cache loc plugin : Location}

theorem checkPlace_congr (h : Alike (t.lookup? loc) (t'.lookup? loc)) :
    checkPlace t loc = checkPlace t' loc := by
  rw [checkPlace, checkPlace]
  rcases h with he | ⟨_, _, he, he'⟩
  · rw [he]
  · rw [he, he']

theorem contentIn_congr (h : t.AlikeBelow t' cache) (hp : cache <+: plugin) :
    contentIn t who plugin = contentIn t' who plugin := by
  have hmarker := h.entry hp markerName
  have hlocation : Alike (t.lookup? (location plugin)) (t'.lookup? (location plugin)) :=
    h.entry (hp.trans (List.prefix_append _ _)) fileName
  have hdirectory : t.isDirectoryAt (marker plugin) = t'.isDirectoryAt (marker plugin) :=
    h.isDirectoryAt hp markerName
  have hfile : fileIn t who plugin = fileIn t' who plugin := by
    rw [fileIn, fileIn, checkPlace_congr hlocation]
    rcases hlocation with he | ⟨_, _, he, he'⟩
    · rw [he]
    · rw [he, he']
      cases checkPlace t' (location plugin) <;> rfl
  rw [contentIn, contentIn, marker, checkPlace_congr hmarker, ← marker, hdirectory, hfile]

end Manifest

namespace Tree

variable {t t' : Tree} {l : t.Listing} {l' : t'.Listing} {who : Account} {cache : Location}

theorem read_congr (ht : t.Proper) (ht' : t'.Proper) (h : t.AlikeBelow t' cache)
    {market plugin : String} (hp : t.IsPluginIn Location.fits cache market plugin) :
    Manifest.read t who cache (cache ++ [market] ++ [plugin]) =
      Manifest.read t' who cache (cache ++ [market] ++ [plugin]) := by
  have hcache : cache <+: cache ++ [market] ++ [plugin] :=
    (List.prefix_append _ _).trans (List.prefix_append _ _)
  have hfits := Location.fits_of_prefix (List.prefix_append _ _) hp.usable
  rw [Manifest.read, Manifest.read, Manifest.content_eq ht hp.inner (by simp) hfits hcache,
    Manifest.content_eq ht' (h.isPluginIn hp).inner (by simp) hfits hcache,
    Manifest.contentIn_congr h hcache]

theorem Before.asymm {a b : String × String} (h : Before a b) : ¬ Before b a := by
  rintro (hba | ⟨he, hba⟩)
  · rcases h with hab | ⟨he', _⟩
    · exact String.lt_asymm hab hba
    · exact String.lt_irrefl _ (he' ▸ hba)
  · rcases h with hab | ⟨_, hab⟩
    · exact String.lt_irrefl _ (he ▸ hab)
    · exact String.lt_asymm hab hba

instance : Std.Irrefl Before := ⟨fun _ h => h.asymm h⟩

instance : Std.Antisymm Before := ⟨fun _ _ hab hba => absurd hba hab.asymm⟩

theorem pluginNames_congr (ht : t.Proper) (ht' : t'.Proper) (hd : t.isDirectoryAt cache = true)
    (hd' : t'.isDirectoryAt cache = true) (h : t.AlikeBelow t' cache) :
    t.pluginNames l cache = t'.pluginNames l' cache := by
  refine List.Pairwise.eq_of_mem_iff pluginNames_ascending pluginNames_ascending fun p => ?_
  rw [mem_pluginNames ht hd, mem_pluginNames ht' hd']
  exact ⟨h.isPluginIn, h.symm.isPluginIn⟩

theorem verdicts_congr (ht : t.Proper) (ht' : t'.Proper) (hd : t.isDirectoryAt cache = true)
    (hd' : t'.isDirectoryAt cache = true) (h : t.AlikeBelow t' cache) :
    t.verdicts l who cache = t'.verdicts l' who cache := by
  rw [verdicts, verdicts, ← pluginNames_congr (l := l) ht ht' hd hd' h]
  refine List.map_congr_left fun p hp => ?_
  rw [read_congr ht ht' h ((mem_pluginNames ht hd).mp hp)]

/-- Reports on caches that are alike declare the same plugins and skip the same. -/
theorem scan_confined (ht : t.Proper) (ht' : t'.Proper) (l : t.Listing) (l' : t'.Listing)
    (who : Account) {cwd cwd' : WorkingDirectory} {root root' : String}
    (hroot : t.canonical cwd root = .ok cache) (hroot' : t'.canonical cwd' root' = .ok cache)
    (hd : t.isDirectoryAt cache = true) (hd' : t'.isDirectoryAt cache = true)
    (h : t.AlikeBelow t' cache) :
    (t.scanListed l who cwd root).declarations = (t'.scanListed l' who cwd' root').declarations ∧
      (t.scanListed l who cwd root).skipped.Perm (t'.scanListed l' who cwd' root').skipped := by
  have hverdicts : t.verdicts l who cache = t'.verdicts l' who cache := verdicts_congr ht ht' hd hd' h
  have hlinks : (t.shelvedLinks l cache).Perm (t'.shelvedLinks l' cache) := by
    refine (List.perm_ext_iff_of_nodup (nodup_shelvedLinks ht hd)
      (nodup_shelvedLinks ht' hd')).mpr fun loc => ?_
    rw [mem_shelvedLinks ht hd, mem_shelvedLinks ht' hd']
    exact ⟨h.isShelvedLink, h.symm.isShelvedLink⟩
  rw [scanListed_eq hroot, scanListed_eq hroot', declarations_scanAt, declarations_scanAt,
    skipped_scanAt, skipped_scanAt, hverdicts]
  exact ⟨rfl, (hlinks.map linkSkip).append_right _⟩

def linkedEntries (target : String) : List (Location × Entry) :=
  [(["c"], .directory 0o755), (["c", "m"], .directory 0o755), (["c", "m", "k"], .link target),
    (["c", "m", "p"], .directory 0o755), (["c", "m", "p", ".claude-plugin"], .directory 0o755),
    (["c", "m", "p", ".claude-plugin", "plugin.json"],
      .file "\x7b\"permissions\":\x7b\"git\":\x7b\x7d\x7d\x7d".toUTF8 0o644),
    (["c", "m", "q"], .directory 0o755), (["c", "m", "q", ".claude-plugin"], .directory 0o755),
    (["c", "m", "q", ".claude-plugin", "plugin.json"], .link target),
    (["c", "m", "r"], .directory 0o755), (["c", "m", "r", ".claude-plugin"], .link target)]

def leadingTree : Tree := .ofList <| linkedEntries "/o/.claude-plugin" ++
  [(["o"], .directory 0o755), (["o", ".claude-plugin"], .directory 0o755),
    (["o", ".claude-plugin", "plugin.json"],
      .file "\x7b\"permissions\":\x7b\"rm\":\x7b\x7d\x7d\x7d".toUTF8 0o644)]

def danglingTree : Tree := .ofList (linkedEntries "gone" ++ [(["a"], .link "c")])

theorem alikeBelow_linked : leadingTree.AlikeBelow danglingTree ["c"] := by
  intro loc hp hne
  by_cases hmem : loc ∈ (linkedEntries "").map Prod.fst
  · simp only [linkedEntries, List.map_cons, List.map_nil, List.mem_cons, List.not_mem_nil,
      or_false] at hmem
    rcases hmem with rfl | rfl | rfl | rfl | rfl | rfl | rfl | rfl | rfl | rfl | rfl
    all_goals first
      | exact .inl rfl
      | exact .inr ⟨_, _, rfl, rfl⟩
  · obtain ⟨below, rfl⟩ := hp
    have hnone {target : String} {es : List (Location × Entry)}
        (hes : ["c"] ++ below ∉ es.map Prod.fst) :
        (ofList (linkedEntries target ++ es)).lookup? (["c"] ++ below) = none := by
      refine lookup?_ofList_of_notMem (by simp) ?_
      rw [List.map_append, List.mem_append, not_or]
      exact ⟨hmem, hes⟩
    rw [leadingTree, danglingTree, hnone (by simp), hnone (by simp)]
    exact .inl rfl

theorem scan_confined_linked :
    let report := leadingTree.scanListed leadingTree.ascendingListing .owner .root "/c"
    let report' := danglingTree.scanListed danglingTree.descendingListing .owner .root "/a"
    leadingTree.Proper ∧ danglingTree.Proper ∧ leadingTree.canonical .root "/c" = .ok ["c"] ∧
    danglingTree.canonical .root "/a" = .ok ["c"] ∧ leadingTree.isDirectoryAt ["c"] = true ∧
    danglingTree.isDirectoryAt ["c"] = true ∧ leadingTree.AlikeBelow danglingTree ["c"] ∧
    (report.declarations = report'.declarations ∧ report.skipped.Perm report'.skipped) ∧
    report.declarations.map Declaration.name = ["p"] ∧
    report.skipped.map Skip.location = [["c", "m", "k"], ["c", "m", "q"], ["c", "m", "r"]] := by
  intro report report'
  have ht : leadingTree.Proper := proper_ofList (by decide +kernel)
  have ht' : danglingTree.Proper := proper_ofList (by decide +kernel)
  have hroot : leadingTree.canonical .root "/c" = .ok ["c"] := ok_of_toOption (by decide +kernel)
  have hroot' : danglingTree.canonical .root "/a" = .ok ["c"] := ok_of_toOption (by decide +kernel)
  have hd : leadingTree.isDirectoryAt ["c"] = true := rfl
  have hd' : danglingTree.isDirectoryAt ["c"] = true := rfl
  exact ⟨ht, ht', hroot, hroot', hd, hd', alikeBelow_linked,
    scan_confined ht ht' leadingTree.ascendingListing danglingTree.descendingListing .owner hroot
      hroot' hd hd' alikeBelow_linked, by decide +kernel, by decide +kernel⟩

end Tree

end PluginConsent
