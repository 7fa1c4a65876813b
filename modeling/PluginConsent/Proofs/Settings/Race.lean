import PluginConsent.Proofs.Settings.Held
import PluginConsent.Proofs.Settings.ReadBack

namespace PluginConsent

theorem ne_concat_of_prefix {α : Type} {xs ys : List α} {y : α} (h : xs <+: ys) : xs ≠ ys ++ [y] := by
  rintro rfl
  have hle := h.length_le
  rw [List.length_append, List.length_singleton] at hle
  omega

structure Writer where
  rules : Policy
  strategy : Strategy
  storable : rules.Storable

def Writer.update (w : Writer) (d : Document) : Document := d.apply w.rules w.strategy

inductive Phase where
  | waiting
  | loaded (u : Update)
  | done (result : Except WriteError Bool)

structure Race (ι : Type) where
  tree : Tree
  phase : ι → Phase

inductive Descends {ι : Type} (writers : ι → Writer) (first : Document) : Document → Prop where
  | first : Descends writers first first
  | update {d : Document} (i : ι) (h : Descends writers first d) :
      Descends writers first ((writers i).update d)

section

variable {ι : Type} {writers : ι → Writer} {first d : Document}

theorem Descends.foreign (h : Descends writers first d) : Document.foreign d = Document.foreign first := by
  induction h with
  | first => rfl
  | update i _ ih => exact Document.foreign_apply.trans ih

theorem Descends.mem_rules (h : Descends writers first d) {a : Action} {rule : String}
    (hrule : rule ∈ Document.rules d a) :
    rule ∈ Document.rules first a ∨ ∃ i, rule ∈ (writers i).rules.rules a := by
  induction h with
  | first => exact .inl hrule
  | update i _ ih =>
      rcases Document.mem_rules_of_apply hrule with hold | hnew
      · exact ih hold
      · exact .inr ⟨i, hnew⟩

end

namespace Race

variable {ι : Type} [DecidableEq ι] (writers : ι → Writer) (who : Account) (cwd : WorkingDirectory)
  (path : String)

def start (t : Tree) : Race ι := ⟨t, fun _ => .waiting⟩

def enter (r : Race ι) (i : ι) (tree : Tree) (phase : Phase) : Race ι :=
  ⟨tree, fun j => if j = i then phase else r.phase j⟩

/-- One writer takes a step: it loads the document, and is done if there is nothing to change; or it
replaces the file by one with its update. -/
def step (r : Race ι) (i : ι) : Race ι :=
  match r.phase i with
  | .waiting =>
    let u := Update.load r.tree who cwd path (writers i).rules (writers i).strategy
    r.enter i r.tree (if u.isIdle then .done (.ok false) else .loaded u)
  | .loaded u =>
    let out := u.store r.tree cwd
    r.enter i out.1 (.done out.2)
  | .done _ => r

def after (t : Tree) (schedule : List ι) : Race ι := schedule.foldl (step writers who cwd path) (start t)

def Legible (t : Tree) (schedule : List ι) : Prop :=
  ∀ taken i u, taken ++ [i] <+: schedule → (after writers who cwd path t taken).phase i = .loaded u →
    u.after.Legible

/-- The document at some point of a race is the first one, or what an update made of one that the file
held at an earlier point. -/
def Whole (t : Tree) (first : Document) (schedule : List ι) (d : Document) : Prop :=
  d = first ∨ ∃ taken i earlier, taken <+: schedule ∧ taken ≠ schedule ∧
    Held (after writers who cwd path t taken).tree who cwd path earlier ∧ d = (writers i).update earlier

structure Intact (t : Tree) (first : Document) (schedule : List ι) (d : Document) : Prop where
  held : Held (after writers who cwd path t schedule).tree who cwd path d
  whole : Whole writers who cwd path t first schedule d
  foreign : Document.foreign d = Document.foreign first
  rules : ∀ a rule, rule ∈ Document.rules d a →
    rule ∈ Document.rules first a ∨ ∃ i, rule ∈ (writers i).rules.rules a
  finished : ∀ taken i written, schedule = taken ++ [i] →
    (∀ result, (after writers who cwd path t taken).phase i ≠ .done result) →
    (after writers who cwd path t schedule).phase i = .done (.ok written) →
    ∀ a, ∀ rule ∈ (writers i).rules.rules a, rule ∈ Document.rules d a

/-- What every step of a race preserves. -/
structure Sound (t : Tree) (first : Document) (schedule : List ι) : Prop where
  proper : (after writers who cwd path t schedule).tree.Proper
  placed : (after writers who cwd path t schedule).tree.isDirectoryAt cwd.nearest = true
  held : ∃ d, Held (after writers who cwd path t schedule).tree who cwd path d ∧
    Descends writers first d ∧ Whole writers who cwd path t first schedule d
  pending : ∀ i u, (after writers who cwd path t schedule).phase i = .loaded u →
    u.path = path ∧ u.isIdle = false ∧ ∃ taken d, taken <+: schedule ∧
      Held (after writers who cwd path t taken).tree who cwd path d ∧ Descends writers first d ∧
      u.after = (writers i).update d

section

variable {writers who cwd path} {t t' : Tree} {first d d' : Document} {schedule taken : List ι} {i : ι}
  {r : Race ι} {u : Update}

theorem after_concat : after writers who cwd path t (schedule ++ [i]) =
    (after writers who cwd path t schedule).step writers who cwd path i := by
  rw [after, List.foldl_append]
  rfl

theorem phase_enter_self (phase : Phase) : (r.enter i t phase).phase i = phase := if_pos rfl

theorem phase_enter_of_ne {j : ι} (h : j ≠ i) (phase : Phase) :
    (r.enter i t phase).phase j = r.phase j := if_neg h

theorem enter_enter (phase phase' : Phase) :
    (r.enter i t phase).enter i t' phase' = r.enter i t' phase' := by
  refine congrArg (Race.mk t') (funext fun j => ?_)
  by_cases hj : j = i
  · rw [if_pos hj, if_pos hj]
  · rw [if_neg hj, if_neg hj, phase_enter_of_ne hj]

theorem Whole.concat (h : Whole writers who cwd path t first schedule d) :
    Whole writers who cwd path t first (schedule ++ [i]) d := by
  rcases h with rfl | ⟨taken, j, earlier, hp, _, hheld, rfl⟩
  · exact .inl rfl
  · exact .inr ⟨taken, j, earlier, hp.trans (List.prefix_append _ _), ne_concat_of_prefix hp, hheld, rfl⟩

theorem sound_start (ht : t.Proper) (hcwd : t.isDirectoryAt cwd.nearest = true)
    (hheld : Held t who cwd path first) : Sound writers who cwd path t first [] :=
  ⟨ht, hcwd, ⟨first, hheld, .first, .inl rfl⟩, fun _ _ hu => by cases hu⟩

/-- Phases are only entered; an update that is still to be stored after a step was so before, or has just
been loaded. -/
theorem Sound.pending_concat (h : Sound writers who cwd path t first schedule) {phase : Phase}
    (hstep : after writers who cwd path t (schedule ++ [i]) =
      (after writers who cwd path t schedule).enter i t' phase)
    (hphase : ∀ u, phase = .loaded u → u.path = path ∧ u.isIdle = false ∧ ∃ d,
      Held (after writers who cwd path t schedule).tree who cwd path d ∧ Descends writers first d ∧
      u.after = (writers i).update d) (j : ι) (u : Update)
    (hu : (after writers who cwd path t (schedule ++ [i])).phase j = .loaded u) :
    u.path = path ∧ u.isIdle = false ∧ ∃ taken d, taken <+: schedule ++ [i] ∧
      Held (after writers who cwd path t taken).tree who cwd path d ∧ Descends writers first d ∧
      u.after = (writers j).update d := by
  rw [hstep] at hu
  by_cases hj : j = i
  · subst hj
    rw [phase_enter_self] at hu
    obtain ⟨hpath, hidle, d, hd⟩ := hphase u hu
    exact ⟨hpath, hidle, schedule, d, List.prefix_append _ _, hd⟩
  · rw [phase_enter_of_ne hj] at hu
    obtain ⟨hpath, hidle, taken, d, hp, hd⟩ := h.pending j u hu
    exact ⟨hpath, hidle, taken, d, hp.trans (List.prefix_append _ _), hd⟩

theorem step_waiting (h : r.phase i = .waiting) : r.step writers who cwd path i =
    r.enter i r.tree
      (if (Update.load r.tree who cwd path (writers i).rules (writers i).strategy).isIdle then
        .done (.ok false)
      else .loaded (Update.load r.tree who cwd path (writers i).rules (writers i).strategy)) := by
  rw [step, h]

theorem step_loaded (h : r.phase i = .loaded u) : r.step writers who cwd path i =
    r.enter i (u.store r.tree cwd).1 (.done (u.store r.tree cwd).2) := by
  rw [step, h]

theorem step_done {result : Except WriteError Bool} (h : r.phase i = .done result) :
    r.step writers who cwd path i = r := by
  rw [step, h]

theorem Sound.waiting (h : Sound writers who cwd path t first schedule)
    (hphase : (after writers who cwd path t schedule).phase i = .waiting) :
    Sound writers who cwd path t first (schedule ++ [i]) := by
  have hstep : after writers who cwd path t (schedule ++ [i]) = _ :=
    after_concat.trans (step_waiting hphase)
  have htree := congrArg Race.tree hstep
  obtain ⟨d, hheld, hdescends, hwhole⟩ := h.held
  refine ⟨htree ▸ h.proper, htree ▸ h.placed, ⟨d, htree ▸ hheld, hdescends, hwhole.concat⟩, ?_⟩
  refine h.pending_concat hstep fun u hu => ?_
  split at hu
  · cases hu
  · next hbusy =>
    cases hu
    refine ⟨rfl, by simpa using hbusy, d, hheld, hdescends, ?_⟩
    rw [Update.load, hheld.read]
    rfl

theorem Sound.loaded (h : Sound writers who cwd path t first schedule)
    (hphase : (after writers who cwd path t schedule).phase i = .loaded u) (hu : u.after.Legible) :
    Sound writers who cwd path t first (schedule ++ [i]) := by
  have hstep : after writers who cwd path t (schedule ++ [i]) = _ :=
    after_concat.trans (step_loaded hphase)
  have htree := congrArg Race.tree hstep
  obtain ⟨rfl, hidle, taken, earlier, hp, hearlier, hdescends', hafter⟩ := h.pending i u hphase
  obtain ⟨d, hheld, hdescends, hwhole⟩ := h.held
  refine ⟨htree ▸ h.proper.store h.placed, htree ▸ Update.isDirectoryAt_store h.placed, ?_,
    h.pending_concat hstep fun _ hu => by cases hu⟩
  rw [htree]
  cases hr : (u.store (after writers who cwd u.path t schedule).tree cwd).2 with
  | error e => exact ⟨d, hheld.store_error hr, hdescends, hwhole.concat⟩
  | ok written =>
      refine ⟨u.after, hheld.store_ok h.proper h.placed hidle hu hr, ?_, .inr ?_⟩
      · rw [hafter]
        exact .update i hdescends'
      · exact ⟨taken, i, earlier, hp.trans (List.prefix_append _ _), ne_concat_of_prefix hp, hearlier,
          hafter⟩

theorem Sound.concat (h : Sound writers who cwd path t first schedule)
    (hlegible : ∀ u, (after writers who cwd path t schedule).phase i = .loaded u → u.after.Legible) :
    Sound writers who cwd path t first (schedule ++ [i]) := by
  cases hphase : (after writers who cwd path t schedule).phase i with
  | waiting => exact h.waiting hphase
  | loaded u => exact h.loaded hphase (hlegible u hphase)
  | done result =>
      have hstep : after writers who cwd path t (schedule ++ [i]) =
          after writers who cwd path t schedule :=
        after_concat.trans (step_done hphase)
      obtain ⟨d, hheld, hdescends, hwhole⟩ := h.held
      refine ⟨hstep ▸ h.proper, hstep ▸ h.placed, ⟨d, hstep ▸ hheld, hdescends, hwhole.concat⟩,
        fun j u hu => ?_⟩
      rw [hstep] at hu
      obtain ⟨hpath, hidle, taken, d, hp, hd⟩ := h.pending j u hu
      exact ⟨hpath, hidle, taken, d, hp.trans (List.prefix_append _ _), hd⟩

theorem sound_after (ht : t.Proper) (hcwd : t.isDirectoryAt cwd.nearest = true)
    (hheld : Held t who cwd path first) (hlegible : Legible writers who cwd path t schedule) :
    Sound writers who cwd path t first schedule := by
  induction schedule using List.reverseRecOn with
  | nil => exact sound_start ht hcwd hheld
  | append_singleton schedule i ih =>
      refine (ih fun taken j u hp => ?_).concat fun u hu => ?_
      · exact hlegible taken j u (hp.trans (List.prefix_append _ _))
      · exact hlegible schedule i u List.prefix_rfl hu

/-- A writer that is done has its rules in the file at that point. If it had nothing to change, they were
there already when it loaded the document. -/
theorem Sound.finished (h : Sound writers who cwd path t first schedule)
    (hlegible : ∀ u, (after writers who cwd path t schedule).phase i = .loaded u → u.after.Legible)
    (hbusy : ∀ result, (after writers who cwd path t schedule).phase i ≠ .done result) {written : Bool}
    (hdone : (after writers who cwd path t (schedule ++ [i])).phase i = .done (.ok written))
    (hheld : Held (after writers who cwd path t (schedule ++ [i])).tree who cwd path d) {a : Action}
    {rule : String} (hrule : rule ∈ (writers i).rules.rules a) : rule ∈ Document.rules d a := by
  rw [after_concat] at hdone hheld
  cases hphase : (after writers who cwd path t schedule).phase i with
  | waiting =>
      rw [step_waiting hphase] at hdone hheld
      rw [phase_enter_self] at hdone
      split at hdone
      · next hidle =>
        have hnow : Held (after writers who cwd path t schedule).tree who cwd path d := hheld
        obtain ⟨d', hbefore, hsame⟩ := Update.isIdle_iff.mp hidle
        obtain rfl : d' = d := Option.some.inj (hbefore.symm.trans hnow.read)
        rw [Update.load, hnow.read] at hsame
        have hpolicy : ((writers i).update d').policy = d'.policy := Document.policy_apply_of_same hsame
        rw [← Document.rules_policy, ← hpolicy, Document.rules_policy]
        exact Document.mem_rules_apply hrule
      · cases hdone
  | loaded u =>
      rw [step_loaded hphase] at hdone hheld
      rw [phase_enter_self] at hdone
      obtain ⟨rfl, hidle, _, earlier, _, _, _, hafter⟩ := h.pending i u hphase
      obtain ⟨d', hheld', _⟩ := h.held
      have hnow := hheld'.store_ok h.proper h.placed hidle (hlegible u hphase) (Phase.done.inj hdone)
      rw [Held.unique hheld hnow, hafter]
      exact Document.mem_rules_apply hrule
  | done result => exact absurd hphase (hbusy result)

/-- With no steps of others in between, the two steps of a writer are a write. -/
theorem step_step (p : Places) (env : Surroundings) (scope : Scope) (h : r.phase i = .waiting)
    (hpath : p.path env r.tree scope = .ok path) :
    let out := p.write env r.tree scope (writers i).rules (writers i).strategy
    (r.step writers env.account env.workingDirectory path i).step writers env.account
      env.workingDirectory path i = r.enter i out.1 (.done out.2) := by
  intro out
  have hout : out = _ :=
    p.write_eq_store env r.tree scope _ (writers i).strategy hpath (writers i).storable
  rw [step_waiting h, hout]
  split
  · next hidle => rw [step_done (phase_enter_self _), Update.store_of_isIdle hidle]
  · rw [step_loaded (phase_enter_self _), enter_enter]
    rfl

end

/-- Whatever steps are taken in whatever order, the file holds a whole update of a document that it held
before, all but the buckets is as it was at first, and no rule is in a bucket that was not filed there. -/
theorem race_keeps_whole_updates (writers : ι → Writer) (env : Surroundings) (path : String) {t : Tree}
    {first : Document} (schedule : List ι) (ht : t.Proper)
    (hcwd : t.isDirectoryAt env.workingDirectory.nearest = true)
    (hheld : Held t env.account env.workingDirectory path first)
    (hlegible : Legible writers env.account env.workingDirectory path t schedule) :
    (∀ (p : Places) (scope : Scope) (r : Race ι) (i : ι), r.phase i = .waiting →
      p.path env r.tree scope = .ok path →
      let out := p.write env r.tree scope (writers i).rules (writers i).strategy
      (r.step writers env.account env.workingDirectory path i).step writers env.account
        env.workingDirectory path i = r.enter i out.1 (.done out.2)) ∧
    ∃ d, Intact writers env.account env.workingDirectory path t first schedule d := by
  refine ⟨fun p scope r i h hpath => step_step p env scope h hpath, ?_⟩
  obtain ⟨d, hd, hdescends, hwhole⟩ := (sound_after ht hcwd hheld hlegible).held
  refine ⟨d, hd, hwhole, hdescends.foreign, fun a rule => hdescends.mem_rules, ?_⟩
  rintro taken i written rfl hbusy hdone a rule hrule
  have hsound := sound_after ht hcwd hheld fun before j u hp =>
    hlegible before j u (hp.trans (List.prefix_append _ _))
  exact hsound.finished (hlegible taken i · List.prefix_rfl) hbusy hdone hd hrule

def oneRuleEach (i : Bool) : Writer where
  rules := ⟨some [if i then "Read(*)" else "Bash(ls)"], none, none⟩
  strategy := .merge
  storable := Policy.firstFault?_eq_none_iff.mp (by cases i <;> decide)

def emptySettings : Tree := Places.withSettings (Document.text []).toUTF8

theorem held_emptySettings : Held emptySettings .owner .root "/h/.claude/settings.json" [] := by
  have hmay : Account.owner.mayRead 0o644 = true := rfl
  have hfile := Places.status_withSettings (Document.text []).toUTF8
  refine ⟨⟨_, _, hfile, hmay⟩, (Document.read?_of_status hfile).trans ?_⟩
  rw [if_pos hmay]
  exact congrArg some (Document.ofContent_text rfl)

def fromNothing (i : Bool) : Update := ⟨"/h/.claude/settings.json", some [], (oneRuleEach i).update []⟩

theorem legible_fromNothing (i : Bool) : (fromNothing i).after.Legible := by
  cases i <;> exact ⟨by decide, rfl⟩

theorem step_emptySettings {r : Race Bool} {i : Bool} (ht : r.tree = emptySettings)
    (h : r.phase i = .waiting) : r.step oneRuleEach .owner .root "/h/.claude/settings.json" i =
      r.enter i emptySettings (.loaded (fromNothing i)) := by
  have hload : Update.load emptySettings .owner .root "/h/.claude/settings.json" (oneRuleEach i).rules
      (oneRuleEach i).strategy = fromNothing i := by
    rw [Update.load, held_emptySettings.read]
    rfl
  have hbusy : (fromNothing i).isIdle = false := by cases i <;> decide
  rw [step_waiting h, ht, hload, hbusy, if_neg Bool.false_ne_true]

theorem after_one_loaded : after oneRuleEach .owner .root "/h/.claude/settings.json" emptySettings [true] =
    (start emptySettings).enter true emptySettings (.loaded (fromNothing true)) :=
  step_emptySettings (r := start emptySettings) rfl rfl

theorem after_both_loaded :
    after oneRuleEach .owner .root "/h/.claude/settings.json" emptySettings [true, false] =
    ((start emptySettings).enter true emptySettings (.loaded (fromNothing true))).enter false
      emptySettings (.loaded (fromNothing false)) := by
  have hconcat : [true, false] = [true] ++ [false] := rfl
  rw [hconcat, after_concat, after_one_loaded]
  exact step_emptySettings rfl rfl

theorem legible_emptySettings : Legible oneRuleEach .owner .root "/h/.claude/settings.json" emptySettings
    [true, false, true, false] := by
  rintro taken i u ⟨rest, hall⟩ hu
  rcases taken with _ | ⟨_, _ | ⟨_, _ | ⟨_, _ | ⟨_, taken⟩⟩⟩⟩
  · cases hu
  · cases hall
    rw [after_one_loaded] at hu
    cases hu
  · cases hall
    rw [after_both_loaded] at hu
    cases hu
    exact legible_fromNothing true
  · cases hall
    have hconcat : [true, false, true] = [true, false] ++ [true] := rfl
    rw [hconcat, after_concat, after_both_loaded, step_loaded rfl] at hu
    cases hu
    exact legible_fromNothing false
  · simp at hall

/-- Both load the empty document, so the second to store loses what the first stored, and nothing else. -/
theorem race_keeps_whole_updates_lost :
    let schedule := [true, false, true, false]
    emptySettings.Proper ∧ emptySettings.isDirectoryAt Places.fromRoot.workingDirectory.nearest = true ∧
    Held emptySettings .owner .root "/h/.claude/settings.json" [] ∧
    Legible oneRuleEach .owner .root "/h/.claude/settings.json" emptySettings schedule ∧
    ∃ d, Intact oneRuleEach .owner .root "/h/.claude/settings.json" emptySettings [] schedule d ∧
      Document.rules d .allow = ["Bash(ls)"] := by
  intro schedule
  have hproper : emptySettings.Proper := Tree.proper_ofList (by decide +kernel)
  refine ⟨hproper, rfl, held_emptySettings, legible_emptySettings, ?_⟩
  obtain ⟨_, d, hd⟩ := race_keeps_whole_updates oneRuleEach Places.fromRoot "/h/.claude/settings.json"
    schedule hproper rfl held_emptySettings legible_emptySettings
  have hread : (Document.read? (after oneRuleEach .owner .root "/h/.claude/settings.json" emptySettings
      schedule).tree .owner .root "/h/.claude/settings.json").map (Document.rules · .allow) =
      some ["Bash(ls)"] := by
    decide +kernel
  have hheld : Held (after oneRuleEach .owner .root "/h/.claude/settings.json" emptySettings schedule).tree
      .owner .root "/h/.claude/settings.json" d := hd.held
  rw [hheld.read] at hread
  exact ⟨d, hd, Option.some.inj hread⟩

end Race

end PluginConsent
