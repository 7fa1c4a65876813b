import PluginConsent.Proofs.Settings.Project
import PluginConsent.Proofs.Settings.Store
import PluginConsent.Proofs.Settings.Text

namespace PluginConsent

namespace Document

theorem utf8ByteSize_text_member {k s : String} (hk : ∀ c ∈ k.toList, Json.IsPlain c)
    (hs : ∀ c ∈ s.toList, Json.IsPlain c) (rest : Json.Object) :
    (text ((k, .string s) :: rest)).utf8ByteSize =
      k.utf8ByteSize + s.utf8ByteSize + (Json.writeFields ⟨some 2⟩ 1 "" rest).utf8ByteSize + 13 := by
  have hstart : "\x7b\n  ".utf8ByteSize = 4 := rfl
  have hquote : "\"".utf8ByteSize = 1 := rfl
  have hcolon : ": ".utf8ByteSize = 2 := rfl
  have hend : "\n\x7d".utf8ByteSize = 2 := rfl
  have hnewline : "\n".utf8ByteSize = 1 := rfl
  simp only [text, Json.pretty_member, Json.quote_of_isPlain hk, Json.quote_of_isPlain hs,
    String.utf8ByteSize_append]
  omega

end Document

namespace Places

def Finds (p : Places) (env : Surroundings) (t : Tree) (scope : Scope) (e : Entry) : Prop :=
  ∃ path, p.path env t scope = .ok path ∧ t.status env.workingDirectory path = .ok e

section

variable {p : Places} {env : Surroundings} {t : Tree} {scope : Scope} {rules : Policy} {s : Strategy}
  {path : String} {content : ByteArray} {mode : Nat}

theorem read_of_path (h : p.path env t scope = .ok path) : p.read env t scope =
    ((Document.read? t env.account env.workingDirectory path).map Document.policy).getD .empty := by
  rw [read, h]

theorem read_of_finds (h : p.Finds env t scope (.file content mode)) : p.read env t scope =
    if env.account.mayRead mode then (Document.ofContent content).policy else .empty := by
  obtain ⟨path, hpath, hfile⟩ := h
  rw [read_of_path hpath, Document.read?_of_status hfile, Option.map_some, Option.getD_some]
  exact apply_ite Document.policy _ _ []

theorem write_replaced (hpath : p.path env t scope = .ok path)
    (h : (p.write env t scope rules s).2 = .ok true) : ∃ slot,
      (t.makeDirectories env.workingDirectory (Tree.parentOf path)).1.Replaced env.workingDirectory path
        (Document.text (Update.load t env.account env.workingDirectory path rules s).after).toUTF8 slot
        (p.write env t scope rules s).1 := by
  have heq := write_eq_store p env t scope rules s hpath (storable_of_write_ok p env t scope rules s h)
  rw [heq] at h ⊢
  exact (Update.store_ok_true h).2.2

theorem finds_written (hpath : p.path env t scope = .ok path)
    (h : (p.write env t scope rules s).2 = .ok true)
    (hapart : (t.makeDirectories env.workingDirectory (Tree.parentOf path)).1.StandsApart
      env.workingDirectory path)
    (hsettled : p.project = none → scope ≠ .user →
      RootSettled env t (p.write env t scope rules s).1) :
    p.Finds env (p.write env t scope rules s).1 scope
      (.file (Document.text (Update.load t env.account env.workingDirectory path rules s).after).toUTF8
        ((t.makeDirectories env.workingDirectory (Tree.parentOf path)).1.modeFor env.workingDirectory
          path)) := by
  obtain ⟨slot, hr⟩ := write_replaced hpath h
  exact ⟨path, path_replaced hpath hr (hr.slot_after hapart) hsettled, hr.status_after hapart⟩

end

variable (p : Places) (env : Surroundings) (t : Tree) (scope : Scope) (rules : Policy) (s : Strategy)

theorem read_of_unchanged {path : String} (hpath : p.path env t scope = .ok path)
    (h : (p.write env t scope rules s).2 = .ok false) :
    p.read env (p.write env t scope rules s).1 scope =
      (Update.load t env.account env.workingDirectory path rules s).after.policy := by
  have heq := write_eq_store p env t scope rules s hpath
    (storable_of_write_ok p env t scope rules s h)
  rw [heq] at h ⊢
  obtain ⟨ht, d, hbefore, hsame⟩ := Update.store_ok_false h
  have hread : Document.read? t env.account env.workingDirectory path = some d := hbefore
  have hafter : (Update.load t env.account env.workingDirectory path rules s).after = d.apply rules s := by
    rw [Update.load, hread]
    rfl
  rw [hafter] at hsame ⊢
  rw [ht, read_of_path hpath, hread]
  exact (Document.policy_apply_of_same hsame).symm

theorem read_of_replaced {path : String} (hpath : p.path env t scope = .ok path)
    (h : (p.write env t scope rules s).2 = .ok true) {d : Document}
    (hd : (Update.load t env.account env.workingDirectory path rules s).after = d)
    (hround : Json.ofString? (Json.object d).pretty = some (.object d))
    (hapart : (t.makeDirectories env.workingDirectory (Tree.parentOf path)).1.StandsApart
      env.workingDirectory path)
    (hsettled : p.project = none → scope ≠ .user →
      RootSettled env t (p.write env t scope rules s).1) :
    p.read env (p.write env t scope rules s).1 scope =
      if env.account.mayRead ((t.makeDirectories env.workingDirectory (Tree.parentOf path)).1.modeFor
          env.workingDirectory path) = true ∧ (Document.text d).utf8ByteSize ≤ Document.maxBytes
        then d.policy else .empty := by
  have hread := read_of_finds (finds_written hpath h hapart hsettled)
  rw [hd, Document.ofContent_text hround, apply_ite Document.policy] at hread
  rw [hread, ite_and]
  rfl

/-- What was written is what is read. If the update changed nothing, that is all; otherwise the file must
be one that may be read, with the mode that it has from before, and the text not longer than readers take;
the way to the file must not lead through what it replaced, and the project root must be found where it
was. -/
theorem read_write {path : String} (hpath : p.path env t scope = .ok path) :
    let d := (Update.load t env.account env.workingDirectory path rules s).after
    let made := (t.makeDirectories env.workingDirectory (Tree.parentOf path)).1
    let out := p.write env t scope rules s
    (out.2 = .ok false → p.read env out.1 scope = d.policy) ∧
    (out.2 = .ok true →
      Json.ofString? (Json.object d).pretty = some (.object d) →
      made.StandsApart env.workingDirectory path →
      (p.project = none → scope ≠ .user → RootSettled env t out.1) →
      p.read env out.1 scope =
        if env.account.mayRead (made.modeFor env.workingDirectory path) = true ∧
            (Document.text d).utf8ByteSize ≤ Document.maxBytes
          then d.policy else .empty) :=
  ⟨read_of_unchanged p env t scope rules s hpath,
    fun h => read_of_replaced p env t scope rules s hpath h rfl⟩

def readAnything : Policy := ⟨some ["Read(*)"], none, none⟩

theorem storable_readAnything : readAnything.Storable :=
  Policy.firstFault?_eq_none_iff.mp (by decide)

theorem load_readAnything {path : String}
    (h : (t.readFile env.account env.workingDirectory path).toOption.isNone = true) :
    (Update.load t env.account env.workingDirectory path readAnything .merge).after =
      [("allow", .array [.string "Read(*)"])] := by
  rw [Update.load, Document.getD_read?_of_unread h]
  rfl

def nestedProject : Tree := .ofList
  [(["a"], .directory 0o755), (["a", ".claude"], .directory 0o755), (["a", "b"], .directory 0o755),
    (["a", "b", ".claude"], .link "/nowhere")]

def inNested : Surroundings := ⟨.ofLocation ["a", "b"], none, .owner⟩

theorem standing_nestedProject {name : String} (hname : Location.IsName name)
    (h : nestedProject.isDirectoryAt ["a", name] = true) : nestedProject.Standing ["a", name] :=
  ((Tree.standing_root nestedProject).concat (by decide) rfl).concat hname h

theorem beyond_nestedProject {dir : Location}
    (h : Beyond (projectRoot nestedProject ["a", "b"]) ["a", "b"] dir) : dir = ["a", "b"] := by
  obtain ⟨habove, hbelow, hne⟩ := h
  have hroot : projectRoot nestedProject ["a", "b"] = ["a"] := by decide +kernel
  rw [hroot] at habove hne
  have hbelow : dir <+: ["a"] ++ ["b"] := hbelow
  rcases List.prefix_concat_iff.mp hbelow with hall | hbelow
  · exact hall
  · exact absurd (hbelow.eq_of_length_le habove.length_le) hne

theorem read_write_nestedProject :
    Places.path ⟨none, none, none⟩ inNested nestedProject .project = .ok "/a/.claude/settings.json" ∧
    (Places.write ⟨none, none, none⟩ inNested nestedProject .project readAnything .merge).2 = .ok true ∧
    Places.read ⟨none, none, none⟩ inNested
      (Places.write ⟨none, none, none⟩ inNested nestedProject .project readAnything .merge).1 .project =
        readAnything := by
  have hpath : Places.path ⟨none, none, none⟩ inNested nestedProject .project =
      .ok "/a/.claude/settings.json" := ok_of_toOption (by decide +kernel)
  have hwrite : (Places.write ⟨none, none, none⟩ inNested nestedProject .project readAnything
      .merge).2 = .ok true := ok_of_toOption (by decide +kernel)
  have hload : (Update.load nestedProject inNested.account _ "/a/.claude/settings.json" readAnything
      .merge).after =
      [("allow", .array [.string "Read(*)"])] :=
    load_readAnything inNested nestedProject (by decide +kernel)
  have hread := (read_write ⟨none, none, none⟩ inNested nestedProject .project readAnything .merge
    hpath).2 hwrite
  have hmode : ((nestedProject.makeDirectories inNested.workingDirectory
      (Tree.parentOf "/a/.claude/settings.json")).1.modeFor inNested.workingDirectory
        "/a/.claude/settings.json") = 0o600 := by decide +kernel
  rw [hload, hmode, if_pos (by decide)] at hread
  refine ⟨hpath, hwrite, hread rfl ?_ fun _ _ cwd hcwd => ?_⟩
  · have hstanding := standing_nestedProject isName_settingsDirectory rfl
    have hgrown := Tree.grown_makeDirectories nestedProject inNested.workingDirectory
      (Tree.parentOf "/a/.claude/settings.json")
    refine Tree.standsApart_of_standing _ (hstanding.grown hgrown) isName_settings rfl fun e he => ?_
    have hnone : ((nestedProject.makeDirectories inNested.workingDirectory
        (Tree.parentOf "/a/.claude/settings.json")).1.lookup?
          (["a", settingsDirectory] ++ ["settings.json"])).isNone = true := by decide +kernel
    rw [Option.isNone_iff_eq_none.mp hnone] at he
    cases he
  · have hcwd : some ["a", "b"] = some cwd := hcwd
    cases hcwd
    refine ⟨standing_nestedProject (by decide) rfl, fun dir _ hbeyond _ => ?_⟩
    rw [beyond_nestedProject hbeyond]
    decide +kernel

/-- Whatever is written is read back, if readers give back the document from its text. -/
def ReadsBack : Prop :=
  ∀ path d written, p.path env t scope = .ok path → rules.Storable →
    (Update.load t env.account env.workingDirectory path rules s).after = d →
    Json.ofString? (Json.object d).pretty = some (.object d) →
    (p.write env t scope rules s).2 = .ok written →
    p.read env (p.write env t scope rules s).1 scope = d.policy

theorem not_readsBack_of_unread {path : String} (hpath : p.path env t scope = .ok path)
    (hs : (t.readFile env.account env.workingDirectory path).toOption.isNone = true)
    (hw : (p.write env t scope readAnything .merge).2.toOption = some true)
    (hr : p.read env (p.write env t scope readAnything .merge).1 scope ≠ readAnything) :
    ¬ ReadsBack p env t scope readAnything .merge :=
  fun h => hr (h path _ true hpath storable_readAnything (load_readAnything env t hs) rfl
    (ok_of_toOption hw))

def atHome : Places := ⟨some "/h", none, none⟩

def fromRoot : Surroundings := ⟨.root, none, .owner⟩

/-- The way to the settings file leads through a link that stands at its own place. -/
def selfLinked : Tree := .ofList
  [(["d"], .directory 0o755), (["d", "s"], .directory 0o755),
    (["d", "s", ".claude"], .directory 0o755),
    (["d", "s", ".claude", "settings.json"], .link "/d"),
    (["h"], .link "/d/s/.claude/settings.json/s")]

/-- A link for the settings of a directory in the project leads to a file that is still to be made. -/
def deadLinked : Tree := .ofList
  [(["a"], .directory 0o755), (["a", ".claude"], .directory 0o755), (["a", "b"], .directory 0o755),
    (["a", "b", ".claude"], .link "/a/.claude/settings.json")]

def lockedSettings : Tree := .ofList
  [(["h"], .directory 0o755), (["h", ".claude"], .directory 0o755),
    (["h", ".claude", "settings.json"], .file "\x7b\x7d".toUTF8 0o200)]

def withSettings (content : ByteArray) : Tree := .ofList
  [(["h"], .directory 0o755), (["h", ".claude"], .directory 0o755),
    (["h", ".claude", "settings.json"], .file content 0o644)]

theorem standing_withSettings (content : ByteArray) :
    (withSettings content).Standing ["h", ".claude"] :=
  ((Tree.standing_root _).concat (by decide) rfl).concat (by decide) rfl

theorem status_withSettings (content : ByteArray) :
    (withSettings content).status .root "/h/.claude/settings.json" = .ok (.file content 0o644) := by
  have hslot := Tree.slot_standing .root (standing_withSettings content) isName_settings
  have he : (withSettings content).lookup? (["h", ".claude"] ++ ["settings.json"]) =
      some (.file content 0o644) := rfl
  have htarget := Tree.target_of_slot hslot rfl (by decide) he
  have hcheck : Tree.checkPath "/h/.claude/settings.json" = .ok () := rfl
  rw [Tree.status, Tree.resolve, hcheck]
  exact (congrArg (· >>= (withSettings content).entryAt) htarget).trans (by
    simp only [bind, Except.bind, Tree.entryAt, Tree.Slot.location, he])

def crowded (n : Nat) (more : Document) : Document :=
  ("a", .string (String.ofList (List.replicate n 'x'))) :: more

def added : Document := [("allow", .array [.string "Read(*)"])]

theorem isPlain_key : ∀ c ∈ "a".toList, Json.IsPlain c := by
  have hkey : "a".toList = ['a'] := rfl
  rw [hkey, List.forall_mem_singleton]
  decide

theorem isPlain_replicate (n : Nat) :
    ∀ c ∈ (String.ofList (List.replicate n 'x')).toList, Json.IsPlain c := by
  intro c hc
  rw [String.toList_ofList] at hc
  rw [List.eq_of_mem_replicate hc]
  exact ⟨by decide, by decide, by decide⟩

theorem utf8ByteSize_crowded (n : Nat) (more : Document) :
    (Document.text (crowded n more)).utf8ByteSize =
      n + (Json.writeFields ⟨some 2⟩ 1 "" more).utf8ByteSize + 14 := by
  have hkey : "a".utf8ByteSize = 1 := rfl
  rw [crowded, Document.utf8ByteSize_text_member isPlain_key (isPlain_replicate n),
    utf8ByteSize_replicate (by decide), hkey]
  omega

theorem standsApart_withSettings (content : ByteArray) :
    ((withSettings content).makeDirectories .root (Tree.parentOf "/h/.claude/settings.json")).1.StandsApart
      .root "/h/.claude/settings.json" := by
  have hgrown := Tree.grown_makeDirectories (withSettings content) .root
    (Tree.parentOf "/h/.claude/settings.json")
  refine Tree.standsApart_of_standing .root ((standing_withSettings content).grown hgrown) isName_settings
    rfl fun e he => ?_
  have hfile : (withSettings content).lookup? (["h", ".claude"] ++ ["settings.json"]) =
      some (.file content 0o644) := rfl
  rw [hgrown.kept hfile] at he
  cases he
  exact Tree.not_passes_file _ _

theorem load_crowded {n : Nat} (hn : n + 14 ≤ Document.maxBytes) :
    Update.load (withSettings (Document.text (crowded n [])).toUTF8) .owner .root
        "/h/.claude/settings.json" readAnything .merge =
      ⟨"/h/.claude/settings.json", some (crowded n []), crowded n added⟩ := by
  have hround : Json.ofString? (Json.object (crowded n [])).pretty = some (.object (crowded n [])) :=
    Json.ofString?_pretty_member rfl rfl
  have hsize : (Document.text (crowded n [])).utf8ByteSize = n + 14 := utf8ByteSize_crowded n []
  have hmay : Account.owner.mayRead 0o644 = true := rfl
  rw [Update.load, Document.read?_of_status (status_withSettings _), if_pos hmay,
    Document.ofContent_text hround, if_pos (by omega)]
  rfl

theorem not_readsBack_crowded {n : Nat} (hn : n + 14 ≤ Document.maxBytes)
    (hlong : Document.maxBytes < n + 46)
    (hw : ((withSettings (Document.text (crowded n [])).toUTF8).replaceFile .root
      "/h/.claude/settings.json" (Document.text (crowded n added)).toUTF8).2.toOption = some ()) :
    ¬ ReadsBack atHome fromRoot (withSettings (Document.text (crowded n [])).toUTF8) .user
      readAnything .merge := by
  intro h
  have hload := load_crowded hn
  have hapart := standsApart_withSettings (Document.text (crowded n [])).toUTF8
  generalize withSettings (Document.text (crowded n [])).toUTF8 = t at h hw hload hapart
  have hround : Json.ofString? (Json.object (crowded n added)).pretty =
      some (.object (crowded n added)) := Json.ofString?_pretty_member rfl rfl
  have hsize : (Document.text (crowded n added)).utf8ByteSize = n + 46 := by
    have hadded : (Json.writeFields ⟨some 2⟩ 1 "" added).utf8ByteSize = 32 := by decide
    rw [utf8ByteSize_crowded, hadded]
  have hpath : atHome.path fromRoot t .user = .ok "/h/.claude/settings.json" := rfl
  have hwrite : (atHome.write fromRoot t .user readAnything .merge).2 = .ok true := by
    rw [write_eq_store atHome fromRoot t .user readAnything .merge hpath storable_readAnything]
    exact (congrArg (fun u : Update => (u.store t .root).2) hload).trans
      (Update.store_of_replaceFile rfl (ok_of_toOption hw))
  have hd : (Update.load t .owner fromRoot.workingDirectory _ readAnything .merge).after =
      crowded n added := congrArg Update.after hload
  have hempty := read_of_replaced atHome fromRoot t .user readAnything .merge hpath hwrite hd hround
    hapart fun _ hscope => absurd rfl hscope
  have hback := h _ _ true hpath storable_readAnything hd hround hwrite
  rw [hback, if_neg (by omega)] at hempty
  cases congrArg Policy.allow hempty

/-- Rules that were written are not read back where the text becomes too long, where the way to the
file leads through what it replaces, where a nearer link for settings comes to life, and where the file
takes over a mode that keeps its owner from reading it. -/
theorem not_readsBack :
    ¬ ReadsBack atHome fromRoot (withSettings (Document.text (crowded 1048560 [])).toUTF8) .user
      readAnything .merge ∧
    ¬ ReadsBack atHome fromRoot selfLinked .user readAnything .merge ∧
    ¬ ReadsBack ⟨none, none, none⟩ inNested deadLinked .project readAnything .merge ∧
    ¬ ReadsBack atHome fromRoot lockedSettings .user readAnything .merge := by
  refine ⟨not_readsBack_crowded (by decide) (by decide) (by decide +kernel), ?_, ?_, ?_⟩
  · exact not_readsBack_of_unread atHome fromRoot selfLinked .user rfl (by decide +kernel)
      (by decide +kernel) (by decide +kernel)
  · have hpath : Places.path ⟨none, none, none⟩ inNested deadLinked .project =
        .ok "/a/.claude/settings.json" := ok_of_toOption (by decide +kernel)
    exact not_readsBack_of_unread _ inNested deadLinked .project hpath (by decide +kernel)
      (by decide +kernel) (by decide +kernel)
  · exact not_readsBack_of_unread atHome fromRoot lockedSettings .user rfl (by decide +kernel)
      (by decide +kernel) (by decide +kernel)

end Places

end PluginConsent
