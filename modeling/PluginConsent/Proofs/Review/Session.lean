import PluginConsent.Proofs.Files.Proper
import PluginConsent.Proofs.Review
import PluginConsent.Proofs.Settings.Clean

namespace PluginConsent.Review

inductive Request where
  | scan
  | categorize
  | plan (scope : Scope)
  | read (scope : Scope)
  | readAll
  | write (scope : Scope) (rules : Policy) (s : Strategy)
  | apply (scope : Scope) (choices : Choices) (s : Strategy)

inductive Answer where
  | report (report : ScanReport)
  | categories (cs : Categories)
  | plan (plan : Plan)
  | policy (p : Policy)
  | policies (ps : List (Scope × Policy))
  | outcome (written : Except WriteError Bool)

def serve (r : Review) (env : Surroundings) (t : Tree) : Request → Tree × Answer
  | .scan => (t, .report (r.scan env t))
  | .categorize => (t, .categories (r.categories env t))
  | .plan scope => (t, .plan (r.plan env t scope))
  | .read scope => (t, .policy (r.places.read env t scope))
  | .readAll => (t, .policies (r.places.readAll env t))
  | .write scope rules s =>
    let out := r.write env t scope rules s
    (out.1, .outcome out.2)
  | .apply scope choices s =>
    let out := r.apply env t scope choices s
    (out.1, .outcome out.2)

structure Call where
  review : Review
  env : Surroundings
  request : Request

def Call.next (t : Tree) (c : Call) : Tree := (c.review.serve c.env t c.request).1

def after (t : Tree) (calls : List Call) : Tree := calls.foldl Call.next t

section

variable {t : Tree}

theorem settingsClean_of_none
    (h : ∀ dir, ∀ name ∈ Places.fileNames, t.lookup? (dir ++ [name]) = none) :
    Places.SettingsClean t := by
  intro dir name hname e he
  rw [h dir name hname] at he
  cases he

theorem settingsClean_apply (h : Places.SettingsClean t) (r : Review) (env : Surroundings)
    (scope : Scope) (choices : Choices) (s : Strategy) :
    Places.SettingsClean (r.apply env t scope choices s).1 := by
  rw [apply]
  split
  · exact h
  · exact h.write r.places env scope _ s

theorem settingsClean_next (h : Places.SettingsClean t) (c : Call) :
    Places.SettingsClean (c.next t) := by
  obtain ⟨r, env, request⟩ := c
  cases request with
  | scan | categorize | plan | read | readAll => exact h
  | write scope rules s => exact h.write r.places env scope rules s
  | apply scope choices s => exact settingsClean_apply h r env scope choices s

theorem settingsClean_after (h : Places.SettingsClean t) (calls : List Call) :
    Places.SettingsClean (after t calls) := by
  induction calls generalizing t with
  | nil => exact h
  | cons c calls ih => exact ih (settingsClean_next h c)

end

/-- If nothing has the name of a settings file at first, then after any session what a scope's path leads
to, if that is a file, is the text of an object of ascending lists of rules that may be stored. -/
theorem session_stores_only_valid_rules {t : Tree}
    (hnone : ∀ dir, ∀ name ∈ Places.fileNames, t.lookup? (dir ++ [name]) = none) (calls : List Call)
    (p : Places) (env : Surroundings) (scope : Scope) {path : String} {content : ByteArray} {mode : Nat}
    (hpath : p.path env (after t calls) scope = .ok path)
    (hfile : (after t calls).status env.workingDirectory path = .ok (.file content mode)) :
    ∃ d : Document, d.Clean ∧ content = (Document.text d).toUTF8 ∧
      Json.ofString? (Document.text d) = some (.object d) := by
  have hclean := settingsClean_after (settingsClean_of_none hnone) calls
  obtain ⟨d, hd, hcontent⟩ := hclean.file hpath hfile
  exact ⟨d, hd, hcontent, Json.ofString?_newline hd.ofString?_pretty⟩

/-- A session with a plugin that asks for one rule that may be stored and, in another category, for one
that may not: the first is applied, and the second refused. -/
def hostileSession : List Call :=
  let r : Review := ⟨⟨some "/c", none, some "/c"⟩, some "/c", .mostPermissive⟩
  let env : Surroundings := ⟨.root, none, .owner⟩
  [⟨r, env, .plan .user⟩, ⟨r, env, .apply .user [("git", .allow)] .merge⟩,
    ⟨r, env, .apply .user [("mcp", .allow)] .merge⟩]

def hostileCache : Tree := cacheOf
  "\x7b\"permissions\":\x7b\"git\":\x7b\"rules\":[\"Bash(git:*)\"]\x7d,\"mcp\":\x7b\"rules\":[\"x\"]\x7d\x7d\x7d"

def isFile : Entry → Bool
  | .file _ _ => true
  | _ => false

theorem session_stores_only_valid_rules_hostile :
    let t := hostileCache
    let p : Places := ⟨some "/c", none, some "/c"⟩
    let env : Surroundings := ⟨.root, none, .owner⟩
    (∀ dir, ∀ name ∈ Places.fileNames, t.lookup? (dir ++ [name]) = none) ∧
    p.path env (after t hostileSession) .user = .ok "/c/.claude/settings.json" ∧
    ∃ content mode,
      (after t hostileSession).status env.workingDirectory "/c/.claude/settings.json" =
        .ok (.file content mode) ∧
      ∃ d : Document, d.Clean ∧ content = (Document.text d).toUTF8 ∧
        Json.ofString? (Document.text d) = some (.object d) := by
  intro t p env
  have hnone : ∀ dir, ∀ name ∈ Places.fileNames, t.lookup? (dir ++ [name]) = none := by
    intro dir name hname
    have hlast : ∀ loc ∈ [["c"], ["c", "m"], ["c", "m", "p"], ["c", "m", "p", ".claude-plugin"],
        ["c", "m", "p", ".claude-plugin", "plugin.json"]], ∀ name ∈ Places.fileNames,
        loc.getLast? ≠ some name := by
      decide
    exact Tree.lookup?_ofList_of_notMem (by simp) fun hm => hlast _ hm name hname (by simp)
  have hfile : ∃ content mode, (after t hostileSession).status env.workingDirectory
      "/c/.claude/settings.json" = .ok (.file content mode) := by
    have hread : ((after t hostileSession).status env.workingDirectory
        "/c/.claude/settings.json").toOption.map isFile = some true := by
      decide +kernel
    obtain ⟨e, he, hkind⟩ := Option.map_eq_some_iff.mp hread
    cases e with
    | file content mode => exact ⟨content, mode, ok_of_toOption he⟩
    | directory | link | pipe => cases hkind
  obtain ⟨content, mode, hfile⟩ := hfile
  exact ⟨hnone, rfl, content, mode, hfile,
    session_stores_only_valid_rules hnone hostileSession p env .user rfl hfile⟩

end PluginConsent.Review
