import PluginConsent.Proofs.Files.Ancestors
import PluginConsent.Proofs.Settings.ReadBack

namespace PluginConsent

namespace Tree

/-- A tree after a file has been written at the place a path names. The way to that place can be one
that only directories which are made for it open. -/
structure Stored (t : Tree) (cwd : WorkingDirectory) (path : String) (content : ByteArray) (s : Slot)
    (t' : Tree) : Prop where
  place : (t.makeDirectories cwd (parentOf path)).1.slot cwd (.ofString path) = .ok (some s)
  free : t.isDirectoryAt s.location = false
  file : ∃ mode, t'.lookup? s.location = some (.file content mode) ∧
    (∀ e, t.status cwd path = .ok e → mode = e.mode) ∧
    ((∀ e, t.status cwd path ≠ .ok e) → mode = 0o600) ∧
    ((t.makeDirectories cwd (parentOf path)).1.StandsApart cwd path →
      t'.status cwd path = .ok (.file content mode))
  other : ∀ loc, loc ≠ s.location → t'.lookup? loc = t.lookup? loc ∨
    t.lookup? loc = none ∧ t'.lookup? loc = some (.directory directoryMode) ∧ loc <+: s.dir

variable {t t' : Tree} {cwd : WorkingDirectory} {path : String} {content : ByteArray} {s : Slot}

theorem modeFor_cases (t : Tree) (cwd : WorkingDirectory) (path : String) :
    (∀ e, t.status cwd path = .ok e → t.modeFor cwd path = e.mode) ∧
    ((∀ e, t.status cwd path ≠ .ok e) → t.modeFor cwd path = 0o600) := by
  refine ⟨fun e => modeFor_of_status, fun h => ?_⟩
  rw [modeFor]
  split
  · next e hs => exact absurd hs (h e)
  · rfl

theorem Replaced.stored (ht : t.Proper) (hup : ".." ∉ (Route.ofString path).names)
    (hm : (t.makeDirectories cwd (parentOf path)).2 = .ok ())
    (hr : Replaced (t.makeDirectories cwd (parentOf path)).1 cwd path content s t') :
    t.Stored cwd path content s t' := by
  obtain ⟨hgrown, hmode⟩ := makeDirectories_parent ht hup (Prod.ext rfl hm) hr.slot hr.slash
  refine ⟨hr.slot, ?_, ⟨_, hr.self, ?_⟩, fun loc hloc => ?_⟩
  · cases hd : t.isDirectoryAt s.location with
    | false => rfl
    | true =>
        have hfree := hr.free
        rw [(grown_makeDirectories t cwd _).isDirectoryAt hd] at hfree
        cases hfree
  · obtain ⟨hsome, hnone⟩ := modeFor_cases t cwd path
    rw [← hmode] at hsome hnone
    exact ⟨hsome, hnone, hr.status_after⟩
  · rw [hr.other loc hloc]
    exact hgrown loc

end Tree

namespace Places

variable (p : Places) (env : Surroundings) (t : Tree) (scope : Scope) (rules : Policy) (s : Strategy)

theorem isIdle_load_iff (path : String) :
    (Update.load t env.account env.workingDirectory path rules s).isIdle = true ↔
      ∃ d, Document.read? t env.account env.workingDirectory path = some d ∧
        (((Document.read? t env.account env.workingDirectory path).getD []).apply rules s).Agree d := by
  rw [Update.isIdle_iff]
  refine exists_congr fun d => and_congr_right fun (hd : Document.read? _ _ _ _ = some d) => ?_
  rw [Update.load, hd]
  exact Document.same_apply_iff (Document.unique_read? hd)

/-- A write that succeeds changes nothing, if there is a document and the update leaves it as it is, and
otherwise puts the text of the new document at the place of the path and touches nothing else. -/
theorem write_changes_one_file {path : String} (ht : t.Proper)
    (hpath : p.path env t scope = .ok path) (hup : ".." ∉ (Route.ofString path).names) :
    let before := Document.read? t env.account env.workingDirectory path
    let after := (before.getD []).apply rules s
    let out := p.write env t scope rules s
    (out.2 = .ok false ↔ rules.Storable ∧ ∃ d, before = some d ∧ after.Agree d) ∧
    (out.2 = .ok false → out.1 = t) ∧
    (out.2 = .ok true → (¬ ∃ d, before = some d ∧ after.Agree d) ∧
      ∃ slot, t.Stored env.workingDirectory path (Document.text after).toUTF8 slot out.1) := by
  intro before after out
  have hidle := isIdle_load_iff env t rules s path
  have hstore (hs : rules.Storable) : out = _ := write_eq_store p env t scope rules s hpath hs
  have hstorable {written : Bool} (h : out.2 = .ok written) : rules.Storable :=
    storable_of_write_ok p env t scope rules s h
  refine ⟨⟨fun h => ⟨hstorable h, ?_⟩, fun ⟨hs, hd⟩ => ?_⟩, fun h => ?_, fun h => ?_⟩
  · rw [hstore (hstorable h)] at h
    exact hidle.mp (Update.store_ok_false_iff.mp h)
  · rw [hstore hs]
    exact Update.store_ok_false_iff.mpr (hidle.mpr hd)
  · have hs := hstorable h
    rw [hstore hs] at h ⊢
    exact (Update.store_ok_false h).1
  · have hs := hstorable h
    rw [hstore hs] at h ⊢
    obtain ⟨hbusy, hmade, slot, hr⟩ := Update.store_ok_true h
    refine ⟨fun hd => ?_, slot, hr.stored ht hup hmade⟩
    rw [hidle.mpr hd] at hbusy
    cases hbusy

def linkedSettings : Tree := .ofList
  [(["h"], .directory 0o755), (["h", ".claude"], .directory 0o755), (["o"], .file "\x7b\x7d".toUTF8 0o640),
    (["h", ".claude", "settings.json"], .link "/o")]

theorem standing_linkedSettings : linkedSettings.Standing ["h", ".claude"] :=
  ((Tree.standing_root _).concat (by decide) rfl).concat (by decide) rfl

theorem write_changes_one_file_linkedSettings :
    let out := atHome.write fromRoot linkedSettings .user readAnything .merge
    linkedSettings.Proper ∧ atHome.path fromRoot linkedSettings .user = .ok "/h/.claude/settings.json" ∧
    ".." ∉ (Route.ofString "/h/.claude/settings.json").names ∧ out.2 = .ok true ∧
    (∃ content, out.1.lookup? ["h", ".claude", "settings.json"] = some (.file content 0o640)) ∧
    out.1.lookup? ["o"] = some (.file "\x7b\x7d".toUTF8 0o640) := by
  intro out
  have hproper : linkedSettings.Proper := Tree.proper_ofList (by decide +kernel)
  have hup : ".." ∉ (Route.ofString "/h/.claude/settings.json").names := by decide
  have hwrite : out.2 = .ok true := ok_of_toOption (by decide +kernel)
  obtain ⟨slot, hstored⟩ := ((write_changes_one_file atHome fromRoot linkedSettings .user
    readAnything .merge hproper rfl hup).2.2 hwrite).2
  have hgrown := Tree.grown_makeDirectories linkedSettings fromRoot.workingDirectory
    (Tree.parentOf "/h/.claude/settings.json")
  have hslot := (Tree.slot_standing fromRoot.workingDirectory (standing_linkedSettings.grown hgrown)
    isName_settings).symm.trans hstored.place
  cases hslot
  refine ⟨hproper, rfl, hup, hwrite, ?_, ?_⟩
  · obtain ⟨mode, hfile, hmode, _⟩ := hstored.file
    have hstatus : (linkedSettings.status fromRoot.workingDirectory
        "/h/.claude/settings.json").toOption.map Entry.mode = some 0o640 := by decide +kernel
    obtain ⟨e, he, hemode⟩ := Option.map_eq_some_iff.mp hstatus
    rw [hmode e (ok_of_toOption he), hemode] at hfile
    exact ⟨_, hfile⟩
  · rcases hstored.other ["o"] (by decide) with he | ⟨hnone, _⟩
    · exact he
    · cases hnone

/-- Whatever a successful write stores is then found at the path. -/
def FoundAfter : Prop :=
  ∀ path, t.Proper → p.path env t scope = .ok path → ".." ∉ (Route.ofString path).names →
    rules.Storable → (p.write env t scope rules s).2 = .ok true →
    ∃ mode, (p.write env t scope rules s).1.status env.workingDirectory path = .ok (.file
      (Document.text (((Document.read? t env.account env.workingDirectory path).getD []).apply
        rules s)).toUTF8 mode)

theorem not_foundAfter : ¬ FoundAfter atHome fromRoot selfLinked .user readAnything .merge := by
  intro h
  obtain ⟨mode, hfile⟩ := h "/h/.claude/settings.json" (Tree.proper_ofList (by decide +kernel)) rfl
    (by decide) storable_readAnything (ok_of_toOption (by decide +kernel))
  have hnone : (((atHome.write fromRoot selfLinked .user readAnything .merge).1.status
      fromRoot.workingDirectory "/h/.claude/settings.json").toOption).isNone = true := by
    decide +kernel
  rw [hfile] at hnone
  cases hnone

end Places

end PluginConsent
