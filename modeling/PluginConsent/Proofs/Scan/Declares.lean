import PluginConsent.Proofs.Confined
import PluginConsent.Proofs.Files.Lasting

namespace PluginConsent

theorem filterMap_eq_of_mem_iff {α β : Type} {r : α → α → Prop} [Std.Antisymm r] [Std.Irrefl r]
    {xs ys : List α} (hx : xs.Pairwise r) (hy : ys.Pairwise r) {f g : α → Option β}
    (h : ∀ a b, (a ∈ xs ∧ f a = some b) ↔ (a ∈ ys ∧ g a = some b)) : xs.filterMap f = ys.filterMap g := by
  have hcount (zs : List α) (k : α → Option β) :
      zs.filterMap k = (zs.filter fun a => (k a).isSome).filterMap k := by
    rw [List.filterMap_filter]
    refine List.filterMap_congr fun a _ => ?_
    cases k a <;> rfl
  have hsame : xs.filter (fun a => (f a).isSome) = ys.filter fun a => (g a).isSome := by
    refine List.Pairwise.eq_of_mem_iff (hx.filter _) (hy.filter _) fun a => ?_
    simp only [List.mem_filter, Option.isSome_iff_exists, ← exists_and_left, h]
  rw [hcount xs f, hcount ys g, hsame]
  refine List.filterMap_congr fun a ha => ?_
  obtain ⟨hmem, hsome⟩ := List.mem_filter.mp ha
  obtain ⟨b, hb⟩ := Option.isSome_iff_exists.mp hsome
  rw [hb, ((h a b).mpr ⟨hmem, hb⟩).2]

namespace Tree

/-- The same files have the name of a manifest, with the same content. -/
def SameManifests (t t' : Tree) : Prop :=
  ∀ dir content mode, t.lookup? (dir ++ [Manifest.fileName]) = some (.file content mode) ↔
    t'.lookup? (dir ++ [Manifest.fileName]) = some (.file content mode)

section

variable {t t' : Tree} {l : t.Listing} {l' : t'.Listing} {who : Account} {cache dir loc : Location}
  {fields : Json.Object}

theorem SameManifests.symm (h : t.SameManifests t') : t'.SameManifests t :=
  fun dir content mode => (h dir content mode).symm

theorem SameManifests.trans {t'' : Tree} (h : t.SameManifests t') (h' : t'.SameManifests t'') :
    t.SameManifests t'' :=
  fun dir content mode => (h dir content mode).trans (h' dir content mode)

theorem Grown.sameManifests (h : t.Grown t') : t.SameManifests t' := by
  refine fun dir content mode => ⟨h.kept, fun he => ?_⟩
  rcases h (dir ++ [Manifest.fileName]) with hsame | ⟨_, hd⟩
  · rwa [← hsame]
  · rw [hd] at he
    cases he

theorem Replaced.sameManifests {cwd : WorkingDirectory} {path : String} {content : ByteArray} {s : Slot}
    (h : t.Replaced cwd path content s t') (hname : s.name ≠ Manifest.fileName) :
    t.SameManifests t' := by
  intro dir content mode
  have hne : dir ++ [Manifest.fileName] ≠ s.location := fun he =>
    hname (List.head_eq_of_cons_eq (List.append_inj' he rfl).2).symm
  rw [h.other _ hne]

theorem SameManifests.holds {usable : Location → Bool} (h : t.SameManifests t') (ht' : t'.Proper)
    (hh : Manifest.Holds t who usable loc fields) : Manifest.Holds t' who usable loc fields := by
  obtain ⟨_, husable, text, mode, he, hread⟩ := hh
  have he' := (h (Manifest.marker loc) text.toUTF8 mode).mp he
  exact ⟨ht'.rooted _ _ _ he', husable, text, mode, he', hread⟩

theorem Proper.isPluginIn_of_holds (ht : t.Proper) {market plugin : String}
    (h : Manifest.Holds t who Location.fits (cache ++ [market] ++ [plugin]) fields) :
    t.IsPluginIn Location.fits cache market plugin := by
  obtain ⟨mode, he⟩ := isDirectoryAt_iff.mp h.marker
  have hinner := ht.rooted _ _ _ he
  obtain ⟨_, he'⟩ := isDirectoryAt_iff.mp hinner
  refine ⟨ht.rooted _ _ _ he', hinner, ?_, Location.fits_of_prefix (List.prefix_append _ _) h.usable⟩
  rw [he]
  exact Option.some_ne_none _

theorem declares_iff (ht : t.Proper) (hd : t.isDirectoryAt cache = true) {names : String × String}
    {d : Declaration} : (names ∈ t.pluginNames l cache ∧
      (Manifest.read t who cache (cache ++ [names.1] ++ [names.2])).toOption = some d) ↔
    ∃ fields, Manifest.Holds t who Location.fits (cache ++ [names.1] ++ [names.2]) fields ∧
      Manifest.Declared fields names.2 d := by
  rw [mem_pluginNames ht hd]
  constructor
  · rintro ⟨hplugin, hread⟩
    exact (read_plugin_iff ht hplugin).mp (ok_of_toOption hread)
  · rintro ⟨fields, hholds, hdeclared⟩
    have hplugin := ht.isPluginIn_of_holds hholds
    refine ⟨hplugin, ?_⟩
    rw [(read_plugin_iff ht hplugin).mpr ⟨fields, hholds, hdeclared⟩]
    rfl

theorem declarations_congr (ht : t.Proper) (ht' : t'.Proper) (hd : t.isDirectoryAt cache = true)
    (hd' : t'.isDirectoryAt cache = true) (h : t.SameManifests t') :
    (t.scanAt l who cache).declarations = (t'.scanAt l' who cache).declarations := by
  rw [declarations_scanAt, declarations_scanAt, verdicts, verdicts, List.filterMap_map,
    List.filterMap_map]
  refine filterMap_eq_of_mem_iff pluginNames_ascending pluginNames_ascending fun names d => ?_
  have hiff : (∃ fields, Manifest.Holds t who Location.fits (cache ++ [names.1] ++ [names.2]) fields ∧
        Manifest.Declared fields names.2 d) ↔
      ∃ fields, Manifest.Holds t' who Location.fits (cache ++ [names.1] ++ [names.2]) fields ∧
        Manifest.Declared fields names.2 d :=
    exists_congr fun _ => and_congr_left fun _ => ⟨h.holds ht', h.symm.holds ht⟩
  exact (declares_iff ht hd).trans (hiff.trans (declares_iff ht' hd').symm)

theorem Proper.declarations_of_not_passes (ht : t.Proper) {e : Entry} (he : t.lookup? loc = some e)
    (hp : ¬ Passes e) : (t.scanAt l who loc).declarations = [] := by
  have hd : t.isDirectoryAt loc = false := by
    rw [← Bool.not_eq_true, isDirectoryAt_iff]
    rintro ⟨mode, hdirectory⟩
    rw [he] at hdirectory
    cases hdirectory
    exact hp (.inl rfl)
  have hempty : t.children l loc = [] := by
    rcases List.eq_nil_or_concat loc with rfl | ⟨dir, name, rfl⟩
    · cases hd
    rw [List.concat_eq_append] at he hd ⊢
    obtain ⟨_, _, hdot, hlen⟩ := (ht.named _ e he name (by simp)).1
    rw [children, locate, resolve_text (ht.named _ e he),
      walk_standing true maxLinks (ht.standing (ht.rooted _ _ e he)),
      walk_of_not_passes hdot hlen he hp]
    cases Location.fits (dir ++ [name]) with
    | false => rfl
    | true => simp [bind, Except.bind, Target.location, hd]
  simp [scanAt, plugins, directories, hempty, Ascending.ofList]

/-- If the way to the cache and the manifests are kept, the same is declared, or else nothing was. -/
theorem scanned_declarations (ht : t.Proper) (ht' : t'.Proper) {cwd : WorkingDirectory}
    (hcwd : t.isDirectoryAt cwd.nearest = true) (hw : Within t t') (h : t.SameManifests t')
    (root : String) : (t.scanListed l who cwd root).declarations = [] ∨
      (t.scanListed l who cwd root).declarations = (t'.scanListed l' who cwd root).declarations := by
  cases hroot : t.canonical cwd root with
  | error e => exact .inl (by rw [scanListed, hroot])
  | ok loc =>
      obtain ⟨e, he, hlink⟩ := ht.canonical_present hcwd hroot
      rw [scanListed, hroot]
      by_cases hp : Passes e
      · have hd : t.isDirectoryAt loc = true := by
          rcases hp with hd | hislink
          · rwa [isDirectoryAt, he]
          · rw [hlink] at hislink
            cases hislink
        have hd' : t'.isDirectoryAt loc = true := by
          rw [isDirectoryAt, hw loc e he hp]
          rwa [isDirectoryAt, he] at hd
        rw [scanListed, canonical_mono hw hd hroot]
        exact .inr (declarations_congr ht ht' hd hd' h)
      · exact .inl (ht.declarations_of_not_passes he hp)

end

end Tree

end PluginConsent
