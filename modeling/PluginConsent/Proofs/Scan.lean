import Mathlib.Data.List.Basic
import PluginConsent.Proofs.Index
import PluginConsent.Proofs.Manifest
import PluginConsent.Scan

namespace PluginConsent

namespace Tree

def Before (a b : String × String) : Prop := a.1 < b.1 ∨ a.1 = b.1 ∧ a.2 < b.2

/-- Directories in which links are reported: the cache and the real directories in it. -/
def IsShelf (t : Tree) (cache dir : Location) : Prop :=
  dir = cache ∨ ∃ market, dir = cache ++ [market] ∧ t.isDirectoryAt dir = true

def IsShelvedLink (t : Tree) (usable : Location → Bool) (cache loc : Location) : Prop :=
  ∃ dir name target, t.IsShelf cache dir ∧ usable dir = true ∧ loc = dir ++ [name] ∧
    t.lookup? loc = some (.link target)

structure IsPluginIn (t : Tree) (usable : Location → Bool) (cache : Location) (market plugin : String) :
    Prop where
  outer : t.isDirectoryAt (cache ++ [market]) = true
  inner : t.isDirectoryAt (cache ++ [market] ++ [plugin]) = true
  marked : t.lookup? (Manifest.marker (cache ++ [market] ++ [plugin])) ≠ none
  usable : usable (Manifest.marker (cache ++ [market] ++ [plugin])) = true

abbrev Verdict := (String × String) × Except SkipReason Declaration

def Verdict.skip? (cache : Location) (v : Verdict) : Option Skip :=
  match v.2 with
  | .ok _ => none
  | .error reason => some ⟨cache ++ [v.1.1] ++ [v.1.2], reason⟩

def linkSkip (loc : Location) : Skip := ⟨loc, .link loc⟩

/-- A report is made up of all links and of one verdict on each plugin, which is a declaration exactly if
the plugin has a manifest that declares it. -/
structure Accounts (t : Tree) (who : Account) (usable : Location → Bool) (cache : Location)
    (links : List Location) (verdicts : List Verdict) (report : ScanReport) : Prop where
  nodup_links : links.Nodup
  mem_links : ∀ loc, loc ∈ links ↔ t.IsShelvedLink usable cache loc
  ascending : (verdicts.map Prod.fst).Pairwise Before
  mem_verdicts : ∀ market plugin,
    (market, plugin) ∈ verdicts.map Prod.fst ↔ t.IsPluginIn usable cache market plugin
  declares : ∀ v ∈ verdicts, ∀ d, v.2 = .ok d ↔
    ∃ fields, Manifest.Holds t who usable (cache ++ [v.1.1] ++ [v.1.2]) fields ∧
      Manifest.Declared fields v.1.2 d
  declarations : report.declarations = verdicts.filterMap fun v => v.2.toOption
  skipped : report.skipped.Perm (links.map linkSkip ++ verdicts.filterMap (Verdict.skip? cache))

def AccountedFor (t : Tree) (who : Account) (usable : Location → Bool) (cache : Location)
    (report : ScanReport) : Prop :=
  ∃ links verdicts, t.Accounts who usable cache links verdicts report

variable {t : Tree} {l : t.Listing} {who : Account} {dir loc cache : Location} {name : String} {e : Entry}

theorem mem_names : name ∈ t.names dir ↔ t.lookup? (dir ++ [name]) ≠ none := by
  have hsub : t.lookup? (dir ++ [name]) = ((t.subtree dir).child name).entry := by
    simp [lookup?, subtree]
  rw [names, Ascending.mem_ofList, List.mem_filter, hsub, Option.isSome_iff_ne_none]
  refine ⟨fun h => h.2, fun h => ⟨?_, h⟩⟩
  by_contra hk
  rw [child, Entries.find?_eq_none_iff.mpr hk] at h
  exact h rfl

theorem mem_listing : name ∈ l.names dir ↔ t.lookup? (dir ++ [name]) ≠ none :=
  (l.perm dir).mem_iff.trans mem_names

theorem nodup_listing (l : t.Listing) (dir : Location) : (l.names dir).Nodup :=
  (l.perm dir).nodup_iff.mpr
    (Ascending.nodup_of_isAscending (Ascending.isAscending_ofList _))

theorem children_eq (ht : t.Proper) (hd : t.isDirectoryAt dir = true) : t.children l dir =
    if dir.fits then
      (l.names dir).filterMap fun name => (t.lookup? (dir ++ [name])).map fun e => (name, e)
    else [] := by
  rw [children, ht.locate_directory hd]
  cases dir.fits with
  | false => rfl
  | true => simp [hd]

theorem mem_children (ht : t.Proper) (hd : t.isDirectoryAt dir = true) :
    (name, e) ∈ t.children l dir ↔ dir.fits = true ∧ t.lookup? (dir ++ [name]) = some e := by
  rw [children_eq ht hd]
  cases dir.fits with
  | false => simp
  | true =>
      simp only [if_true, List.mem_filterMap, Option.map_eq_some_iff, Prod.mk.injEq, true_and]
      constructor
      · rintro ⟨_, _, _, he, rfl, rfl⟩
        exact he
      · intro he
        exact ⟨name, mem_listing.mpr (by simp [he]), e, he, rfl, rfl⟩

theorem nodup_children (ht : t.Proper) (hd : t.isDirectoryAt dir = true) :
    ((t.children l dir).map Prod.fst).Nodup := by
  rw [children_eq ht hd]
  cases dir.fits with
  | false => exact List.nodup_nil
  | true =>
      rw [if_pos rfl, List.map_filterMap]
      refine List.pairwise_filterMap.mpr ((nodup_listing l dir).imp fun hne a ha b hb => ?_)
      simp only [Option.map_map, Option.map_eq_some_iff] at ha hb
      obtain ⟨_, _, rfl⟩ := ha
      obtain ⟨_, _, rfl⟩ := hb
      exact hne

def directoryNames (t : Tree) (l : t.Listing) (dir : Location) : List String :=
  Ascending.ofList (((t.children l dir).filter fun c => c.2.isDirectory).map Prod.fst)

theorem directories_eq : t.directories l dir =
    (t.directoryNames l dir).map fun name => dir ++ [name] := rfl

theorem mem_directoryNames (ht : t.Proper) (hd : t.isDirectoryAt dir = true) :
    name ∈ t.directoryNames l dir ↔ dir.fits = true ∧ t.isDirectoryAt (dir ++ [name]) = true := by
  rw [directoryNames, Ascending.mem_ofList, List.mem_map, isDirectoryAt_iff]
  constructor
  · rintro ⟨⟨name, e⟩, hc, rfl⟩
    obtain ⟨hc, he⟩ := List.mem_filter.mp hc
    obtain ⟨hfits, hlook⟩ := (mem_children ht hd).mp hc
    cases e with
    | directory mode => exact ⟨hfits, mode, hlook⟩
    | file | link | pipe => cases he
  · rintro ⟨hfits, mode, hlook⟩
    exact ⟨(name, .directory mode), List.mem_filter.mpr ⟨(mem_children ht hd).mpr ⟨hfits, hlook⟩, rfl⟩,
      rfl⟩

theorem nodup_places {names : List String} (h : names.Nodup) (dir : Location) :
    (names.map fun name => dir ++ [name]).Nodup :=
  List.pairwise_map.mpr (h.imp fun hne he =>
    hne (List.head_eq_of_cons_eq (List.append_cancel_left he)))

def linkPlaces (t : Tree) (l : t.Listing) (dir : Location) : List Location :=
  ((t.children l dir).filter fun c => c.2.isLink).map fun c => dir ++ [c.1]

theorem linkSkips_eq : t.linkSkips l dir = (t.linkPlaces l dir).map linkSkip := by
  rw [linkSkips, linkPlaces, List.map_map]
  rfl

theorem mem_linkPlaces (ht : t.Proper) (hd : t.isDirectoryAt dir = true) :
    loc ∈ t.linkPlaces l dir ↔ dir.fits = true ∧
      ∃ name target, loc = dir ++ [name] ∧ t.lookup? loc = some (.link target) := by
  rw [linkPlaces, List.mem_map]
  constructor
  · rintro ⟨⟨name, e⟩, hc, rfl⟩
    obtain ⟨hc, he⟩ := List.mem_filter.mp hc
    obtain ⟨hfits, hlook⟩ := (mem_children ht hd).mp hc
    cases e with
    | link target => exact ⟨hfits, name, target, rfl, hlook⟩
    | file | directory | pipe => cases he
  · rintro ⟨hfits, name, target, rfl, hlook⟩
    exact ⟨(name, .link target), List.mem_filter.mpr ⟨(mem_children ht hd).mpr ⟨hfits, hlook⟩, rfl⟩, rfl⟩

theorem nodup_linkPlaces (ht : t.Proper) (hd : t.isDirectoryAt dir = true) :
    (t.linkPlaces l dir).Nodup := by
  have hnames : (((t.children l dir).filter fun c => c.2.isLink).map Prod.fst).Nodup :=
    (nodup_children ht hd).sublist (List.filter_sublist.map _)
  have hplaces := nodup_places hnames dir
  rw [List.map_map] at hplaces
  exact hplaces

theorem isPlugin_iff (ht : t.Proper) (hd : t.isDirectoryAt loc = true) : t.isPlugin loc = true ↔
    (Manifest.marker loc).fits = true ∧ t.lookup? (Manifest.marker loc) ≠ none := by
  rw [isPlugin, Manifest.marker, ht.linkStatus_place hd Manifest.isPathName_markerName]
  cases Location.fits (loc ++ [Manifest.markerName]) with
  | false => simp [Except.toBool]
  | true =>
      rw [if_pos rfl, entryAt]
      cases t.lookup? (loc ++ [Manifest.markerName]) <;> simp [Except.toBool]

def pluginNames (t : Tree) (l : t.Listing) (cache : Location) : List (String × String) :=
  (t.directoryNames l cache).flatMap fun market =>
    ((t.directoryNames l (cache ++ [market])).filter fun plugin =>
      t.isPlugin (cache ++ [market] ++ [plugin])).map fun plugin => (market, plugin)

theorem plugins_eq : t.plugins l cache =
    (t.pluginNames l cache).map fun p => cache ++ [p.1] ++ [p.2] := by
  rw [plugins, pluginNames, directories_eq, List.flatMap_map, List.map_flatMap]
  simp only [directories_eq, List.filter_map, List.map_map, Function.comp_def]

theorem pluginNames_ascending : (t.pluginNames l cache).Pairwise Before := by
  have hnames (dir : Location) : (t.directoryNames l dir).Pairwise (· < ·) :=
    Ascending.isAscending_ofList _
  refine List.pairwise_flatMap.mpr ⟨fun market _ => ?_, (hnames cache).imp fun hlt x hx y hy => ?_⟩
  · exact List.pairwise_map.mpr (((hnames _).filter _).imp fun hlt => .inr ⟨rfl, hlt⟩)
  · obtain ⟨_, _, rfl⟩ := List.mem_map.mp hx
    obtain ⟨_, _, rfl⟩ := List.mem_map.mp hy
    exact .inl hlt

theorem mem_pluginNames (ht : t.Proper) (hd : t.isDirectoryAt cache = true) {market plugin : String} :
    (market, plugin) ∈ t.pluginNames l cache ↔ t.IsPluginIn Location.fits cache market plugin := by
  have hmem : (market, plugin) ∈ t.pluginNames l cache ↔ market ∈ t.directoryNames l cache ∧
      plugin ∈ t.directoryNames l (cache ++ [market]) ∧
      t.isPlugin (cache ++ [market] ++ [plugin]) = true := by
    simp [pluginNames]
  rw [hmem, mem_directoryNames ht hd]
  constructor
  · rintro ⟨⟨_, hmarket⟩, hplugin, hmarked⟩
    obtain ⟨_, hplugin⟩ := (mem_directoryNames ht hmarket).mp hplugin
    obtain ⟨hfits, hentry⟩ := (isPlugin_iff ht hplugin).mp hmarked
    exact ⟨hmarket, hplugin, hentry, hfits⟩
  · rintro ⟨hmarket, hplugin, hentry, hfits⟩
    have hup {up : Location} (h : up <+: cache ++ [market] ++ [plugin]) : up.fits = true :=
      Location.fits_of_prefix (h.trans (List.prefix_append _ _)) hfits
    refine ⟨⟨hup ?_, hmarket⟩, (mem_directoryNames ht hmarket).mpr ⟨hup ?_, hplugin⟩,
      (isPlugin_iff ht hplugin).mpr ⟨hfits, hentry⟩⟩
    · exact (List.prefix_append _ _).trans (List.prefix_append _ _)
    · exact List.prefix_append _ _

theorem isDirectoryAt_of_isShelf (hd : t.isDirectoryAt cache = true) (h : t.IsShelf cache dir) :
    t.isDirectoryAt dir = true := by
  rcases h with rfl | ⟨market, _, h⟩
  · exact hd
  · exact h

def shelves (t : Tree) (l : t.Listing) (cache : Location) : List Location :=
  cache :: t.directories l cache

theorem isShelf_of_mem (ht : t.Proper) (hd : t.isDirectoryAt cache = true)
    (h : dir ∈ t.shelves l cache) : t.IsShelf cache dir := by
  rw [shelves, List.mem_cons, directories_eq, List.mem_map] at h
  rcases h with rfl | ⟨market, hm, rfl⟩
  · exact .inl rfl
  · exact .inr ⟨market, rfl, ((mem_directoryNames ht hd).mp hm).2⟩

theorem IsShelf.mem_shelves (h : t.IsShelf cache dir) (ht : t.Proper)
    (hd : t.isDirectoryAt cache = true) (hfits : dir.fits = true) : dir ∈ t.shelves l cache := by
  rcases h with rfl | ⟨market, rfl, hm⟩
  · exact List.mem_cons_self
  · have hcache : cache.fits = true := Location.fits_of_prefix (List.prefix_append _ _) hfits
    exact List.mem_cons_of_mem _
      (List.mem_map_of_mem ((mem_directoryNames ht hd).mpr ⟨hcache, hm⟩))

theorem nodup_shelves : (t.shelves l cache).Nodup := by
  rw [shelves, directories_eq, List.nodup_cons]
  exact ⟨by simp, nodup_places (Ascending.nodup_of_isAscending (Ascending.isAscending_ofList _)) cache⟩

def shelvedLinks (t : Tree) (l : t.Listing) (cache : Location) : List Location :=
  (t.shelves l cache).flatMap (t.linkPlaces l)

theorem mem_shelvedLinks (ht : t.Proper) (hd : t.isDirectoryAt cache = true) :
    loc ∈ t.shelvedLinks l cache ↔ t.IsShelvedLink Location.fits cache loc := by
  rw [shelvedLinks, List.mem_flatMap]
  constructor
  · rintro ⟨dir, hmem, hloc⟩
    have hshelf := isShelf_of_mem ht hd hmem
    obtain ⟨hfits, name, target, he, hlook⟩ :=
      (mem_linkPlaces ht (isDirectoryAt_of_isShelf hd hshelf)).mp hloc
    exact ⟨dir, name, target, hshelf, hfits, he, hlook⟩
  · rintro ⟨dir, name, target, hshelf, hfits, he, hlook⟩
    exact ⟨dir, hshelf.mem_shelves ht hd hfits,
      (mem_linkPlaces ht (isDirectoryAt_of_isShelf hd hshelf)).mpr ⟨hfits, name, target, he, hlook⟩⟩

theorem nodup_shelvedLinks (ht : t.Proper) (hd : t.isDirectoryAt cache = true) :
    (t.shelvedLinks l cache).Nodup := by
  have hdir {dir : Location} (hmem : dir ∈ t.shelves l cache) : t.isDirectoryAt dir = true :=
    isDirectoryAt_of_isShelf hd (isShelf_of_mem ht hd hmem)
  refine List.pairwise_flatMap.mpr ⟨fun dir hmem => nodup_linkPlaces ht (hdir hmem), ?_⟩
  refine nodup_shelves.imp_of_mem fun {dir dir'} hmem hmem' hne loc hloc loc' hloc' hsame => hne ?_
  obtain ⟨_, name, _, he, _⟩ := (mem_linkPlaces ht (hdir hmem)).mp hloc
  obtain ⟨_, name', _, he', _⟩ := (mem_linkPlaces ht (hdir hmem')).mp hloc'
  exact (List.append_inj' (he.symm.trans (hsame.trans he')) rfl).1

def verdicts (t : Tree) (l : t.Listing) (who : Account) (cache : Location) : List Verdict :=
  (t.pluginNames l cache).map fun p => (p, Manifest.read t who cache (cache ++ [p.1] ++ [p.2]))

theorem map_fst_verdicts : (t.verdicts l who cache).map Prod.fst = t.pluginNames l cache := by
  simp [verdicts, Function.comp_def]

theorem declarations_scanAt : (t.scanAt l who cache).declarations =
    (t.verdicts l who cache).filterMap fun v => v.2.toOption := by
  simp only [scanAt, plugins_eq, verdicts, List.filterMap_map, Function.comp_def]

theorem skipped_scanAt : (t.scanAt l who cache).skipped = (t.shelvedLinks l cache).map linkSkip ++
    (t.verdicts l who cache).filterMap (Verdict.skip? cache) := by
  have hskips : t.linkSkips l = fun dir => (t.linkPlaces l dir).map linkSkip :=
    funext fun dir => linkSkips_eq
  simp only [scanAt, plugins_eq, verdicts, shelvedLinks, shelves, hskips, List.filterMap_map,
    List.flatMap_cons, List.map_append, List.map_flatMap]
  rfl

theorem read_plugin_iff (ht : t.Proper) {market plugin : String} {d : Declaration}
    (h : t.IsPluginIn Location.fits cache market plugin) :
    Manifest.read t who cache (cache ++ [market] ++ [plugin]) = .ok d ↔
      ∃ fields, Manifest.Holds t who Location.fits (cache ++ [market] ++ [plugin]) fields ∧
        Manifest.Declared fields plugin d := by
  have hfits := Location.fits_of_prefix (List.prefix_append _ _) h.usable
  have hcache : cache <+: cache ++ [market] ++ [plugin] :=
    (List.prefix_append _ _).trans (List.prefix_append _ _)
  rw [Manifest.read_ok_iff ht h.inner (by simp) hfits hcache]
  simp

theorem accounts_scanAt (ht : t.Proper) (hd : t.isDirectoryAt cache = true) :
    t.Accounts who Location.fits cache (t.shelvedLinks l cache) (t.verdicts l who cache)
      (t.scanAt l who cache) := by
  have hplugins (market plugin : String) : (market, plugin) ∈ (t.verdicts l who cache).map Prod.fst ↔
      t.IsPluginIn Location.fits cache market plugin := by
    rw [map_fst_verdicts]
    exact mem_pluginNames ht hd
  refine ⟨nodup_shelvedLinks ht hd, fun _ => mem_shelvedLinks ht hd, ?_, hplugins, fun v hv d => ?_,
    declarations_scanAt, ?_⟩
  · rw [map_fst_verdicts]
    exact pluginNames_ascending
  · have hplugin := (hplugins v.1.1 v.1.2).mp (List.mem_map_of_mem hv)
    obtain ⟨p, _, rfl⟩ := List.mem_map.mp hv
    exact read_plugin_iff ht hplugin
  · rw [skipped_scanAt]

theorem scanListed_eq {cwd : WorkingDirectory} {root : String}
    (hroot : t.canonical cwd root = .ok cache) : t.scanListed l who cwd root = t.scanAt l who cache := by
  rw [scanListed, hroot]

/-- A scan accounts for all that stands in the cache, as far as paths reach. -/
theorem scan_accounts (ht : t.Proper) (l : t.Listing) (who : Account) {cwd : WorkingDirectory}
    {root : String} (hroot : t.canonical cwd root = .ok cache) (hd : t.isDirectoryAt cache = true) :
    t.AccountedFor who Location.fits cache (t.scanListed l who cwd root) := by
  rw [scanListed_eq hroot]
  exact ⟨_, _, accounts_scanAt ht hd⟩

def mixedCache : Tree := .ofList
  [(["c"], .directory 0o755), (["c", "l"], .link "/"), (["c", "m"], .directory 0o755),
    (["c", "m", "k"], .link "p"), (["c", "m", "p"], .directory 0o755),
    (["c", "m", "p", ".claude-plugin"], .directory 0o755),
    (["c", "m", "p", ".claude-plugin", "plugin.json"],
      .file "\x7b\"permissions\":\x7b\"git\":\x7b\x7d\x7d\x7d".toUTF8 0o644),
    (["c", "m", "q"], .directory 0o755), (["c", "m", "q", ".claude-plugin"], .pipe 0o644)]

def descendingListing (t : Tree) : t.Listing :=
  ⟨fun dir => (t.names dir).reverse, fun _ => List.reverse_perm _⟩

theorem scan_accounts_mixedCache :
    let report := mixedCache.scanListed mixedCache.descendingListing .owner .root "/c"
    mixedCache.Proper ∧ mixedCache.canonical .root "/c" = .ok ["c"] ∧
    mixedCache.isDirectoryAt ["c"] = true ∧ mixedCache.AccountedFor .owner Location.fits ["c"] report ∧
    report.declarations.map Declaration.name = ["p"] ∧
    report.skipped.map Skip.location = [["c", "l"], ["c", "m", "k"], ["c", "m", "q"]] := by
  intro report
  have hproper : mixedCache.Proper := proper_ofList (by decide +kernel)
  have hroot : mixedCache.canonical .root "/c" = .ok ["c"] := ok_of_toOption (by decide +kernel)
  have hd : mixedCache.isDirectoryAt ["c"] = true := rfl
  exact ⟨hproper, hroot, hd, scan_accounts hproper mixedCache.descendingListing .owner hroot hd,
    by decide +kernel, by decide +kernel⟩

theorem not_accountedFor_of_long (ht : t.Proper) (hd : t.isDirectoryAt cache = true) {market target : String}
    (hm : t.isDirectoryAt (cache ++ [market]) = true)
    (hlong : Location.fits (cache ++ [market]) = false)
    (hlink : t.lookup? (cache ++ [market] ++ [name]) = some (.link target)) :
    ¬ t.AccountedFor who (fun _ => true) cache (t.scanAt l who cache) := by
  rintro ⟨links, verdicts, hall⟩
  have hreal : t.Accounts who Location.fits cache _ _ (t.scanAt l who cache) := accounts_scanAt ht hd
  have hmem : linkSkip (cache ++ [market] ++ [name]) ∈ (t.scanAt l who cache).skipped := by
    refine hall.skipped.mem_iff.mpr (List.mem_append_left _ (List.mem_map_of_mem ?_))
    exact (hall.mem_links _).mpr ⟨_, name, target, .inr ⟨market, rfl, hm⟩, rfl, rfl, hlink⟩
  rcases List.mem_append.mp (hreal.skipped.mem_iff.mp hmem) with hskip | hskip
  · obtain ⟨loc, hloc, he⟩ := List.mem_map.mp hskip
    obtain rfl := congrArg Skip.location he
    obtain ⟨dir, _, _, _, hfits, heq, _⟩ := (hreal.mem_links _).mp hloc
    have hdir : cache ++ [market] = dir := (List.append_inj' heq rfl).1
    rw [hdir, hfits] at hlong
    cases hlong
  · -- What is skipped as a plugin is a directory.
    obtain ⟨⟨p, result⟩, hv, he⟩ := List.mem_filterMap.mp hskip
    have hplugin := (hreal.mem_verdicts p.1 p.2).mp (List.mem_map_of_mem hv)
    cases result with
    | ok d => cases he
    | error reason =>
        have hplace : cache ++ [p.1] ++ [p.2] = cache ++ [market] ++ [name] :=
          congrArg Skip.location (Option.some.inj he)
        have hinner := hplugin.inner
        rw [hplace, isDirectoryAt, hlink] at hinner
        cases hinner

def chain (name : String) : Nat → Tree
  | 0 => empty
  | n + 1 => (chain name n).put (List.replicate n name ++ [name]) (.directory directoryMode)

theorem lookup?_chain {n : Nat} (h : n < loc.length) : (chain name n).lookup? loc = none := by
  induction n with
  | zero => exact lookup?_empty (List.ne_nil_of_length_pos h)
  | succ n ih =>
      have hne : loc ≠ List.replicate n name ++ [name] := by
        rintro rfl
        simp at h
      rw [chain, lookup?_put_of_ne _ hne, ih (Nat.lt_of_succ_lt h)]

theorem chain_directories (hname : Location.IsPathName name) (n : Nat) : (chain name n).Proper ∧
    ∀ k ≤ n, (chain name n).isDirectoryAt (List.replicate k name) = true := by
  induction n with
  | zero =>
      refine ⟨proper_empty, fun k hk => ?_⟩
      obtain rfl := Nat.le_zero.mp hk
      rfl
  | succ n ih =>
      refine ⟨ih.1.put (ih.2 n (Nat.le_refl n)) hname fun _ => rfl, fun k hk => ?_⟩
      rcases Nat.lt_or_eq_of_le hk with hlt | rfl
      · have hne : List.replicate k name ≠ List.replicate n name ++ [name] := by
          intro he
          have hlen := congrArg List.length he
          simp only [List.length_replicate, List.length_append, List.length_singleton] at hlen
          omega
        rw [chain, isDirectoryAt_put_of_ne hne]
        exact ih.2 k (Nat.le_of_lt_succ hlt)
      · rw [List.replicate_succ', chain, isDirectoryAt_put_self (by simp)]
        rfl

theorem isPathName_replicate {n : Nat} (h : n + 1 ≤ maxNameBytes) :
    Location.IsPathName (String.ofList (List.replicate (n + 1) 'd')) := by
  have hchars : ∀ c ∈ (String.ofList (List.replicate (n + 1) 'd')).toList, c = 'd' := by
    intro c hc
    rw [String.toList_ofList] at hc
    exact List.eq_of_mem_replicate hc
  have hhead : (String.ofList (List.replicate (n + 1) 'd')).toList.head? = some 'd' := by
    rw [String.toList_ofList]
    rfl
  have hne {s : String} (hs : s.toList.head? ≠ some 'd') :
      String.ofList (List.replicate (n + 1) 'd') ≠ s := fun he => hs (he ▸ hhead)
  have hdot : isDotName (String.ofList (List.replicate (n + 1) 'd')) = false := by
    simp only [isDotName, Bool.or_eq_false_iff, beq_eq_false_iff_ne]
    exact ⟨hne (by decide), hne (by decide)⟩
  refine ⟨⟨hne (by decide), fun hc => ?_, hdot, ?_⟩, fun hc => ?_⟩
  · exact absurd (hchars _ hc) (by decide)
  · rwa [utf8ByteSize_replicate (by decide)]
  · exact absurd (hchars _ hc) (by decide)

def longName : String := String.ofList (List.replicate maxNameBytes 'd')

theorem utf8ByteSize_longName : longName.utf8ByteSize = 255 := utf8ByteSize_replicate (by decide) 255

theorem isPathName_longName : Location.IsPathName longName := isPathName_replicate (Nat.le_refl 255)

/-- A directory with a path of 3840 bytes. -/
def deep : Location := List.replicate 14 longName ++ [longName]

def deepCache : Tree := (chain longName 16).put (deep ++ [longName] ++ ["l"]) (.link "/")

theorem proper_deepCache : deepCache.Proper := by
  obtain ⟨hchain, hdirectories⟩ := chain_directories isPathName_longName 16
  refine hchain.put (hdirectories 16 (Nat.le_refl 16)) (by decide) fun hd => ?_
  rw [isDirectoryAt, lookup?_chain (by simp [deep])] at hd
  cases hd

theorem isDirectoryAt_deepCache {k : Nat} (h : k ≤ 16) :
    deepCache.isDirectoryAt (List.replicate k longName) = true := by
  have hne : List.replicate k longName ≠ deep ++ [longName] ++ ["l"] := by
    intro he
    have hlen := congrArg List.length he
    simp only [deep, List.length_replicate, List.length_append, List.length_singleton] at hlen
    omega
  rw [deepCache, isDirectoryAt_put_of_ne hne]
  exact (chain_directories isPathName_longName 16).2 k h

theorem bytes_longNames (k : Nat) : Location.bytes (List.replicate k longName) = 256 * k := by
  induction k with
  | zero => rfl
  | succ k ih =>
      rw [List.replicate_succ, Location.bytes_cons, ih, utf8ByteSize_longName]
      omega

theorem not_accountedFor : ¬ ∀ (t : Tree) (l : t.Listing) (who : Account) (cwd : WorkingDirectory)
    (root : String) (cache : Location), t.Proper → t.canonical cwd root = .ok cache →
      t.isDirectoryAt cache = true →
      t.AccountedFor who (fun _ => true) cache (t.scanListed l who cwd root) := by
  intro h
  have hdeep : deep = List.replicate 15 longName := List.replicate_succ'.symm
  have hmarket : deep ++ [longName] = List.replicate 16 longName := by
    rw [hdeep, ← List.replicate_succ']
  have hd : deepCache.isDirectoryAt deep = true := by
    rw [hdeep]
    exact isDirectoryAt_deepCache (by decide)
  obtain ⟨mode, he⟩ := isDirectoryAt_iff.mp hd
  have hfits : deep.fits = true := by
    rw [hdeep, Location.fits, bytes_longNames]
    rfl
  have hroot : deepCache.canonical .root deep.text = .ok deep :=
    proper_deepCache.canonical_place (isDirectoryAt_deepCache (by decide)) isPathName_longName hfits he
      rfl
  have hall := h deepCache deepCache.ascendingListing .privileged .root deep.text deep proper_deepCache
    hroot hd
  rw [scanListed_eq hroot] at hall
  refine not_accountedFor_of_long proper_deepCache hd ?_ ?_ (lookup?_put_self _ (by simp) _) hall
  · rw [hmarket]
    exact isDirectoryAt_deepCache (Nat.le_refl 16)
  · rw [hmarket, Location.fits, bytes_longNames]
    rfl

end Tree

end PluginConsent
