import PluginConsent.Files.Walk

namespace PluginConsent

theorem ok_of_toOption {ε α : Type} {x : Except ε α} {a : α} (h : x.toOption = some a) :
    x = .ok a := by
  cases x with
  | error => cases h
  | ok => exact congrArg Except.ok (Option.some.inj h)

theorem ne_ok_of_toOption {ε α : Type} {x : Except ε α} (h : x.toOption.isNone = true) (a : α) :
    x ≠ .ok a := by
  rintro rfl
  cases h

namespace Tree

def Passes (e : Entry) : Prop := e.isDirectory = true ∨ e.isLink = true

/-- All that a walk can go on through stands in the other tree too. -/
def Within (t t' : Tree) : Prop :=
  ∀ loc e, t.lookup? loc = some e → Passes e → t'.lookup? loc = some e

theorem not_passes_file (content : ByteArray) (mode : Nat) : ¬ Passes (.file content mode) := by
  simp [Passes, Entry.isDirectory, Entry.isLink]

theorem within_of_put_file {t : Tree} {loc : Location} (hne : loc ≠ []) (content : ByteArray)
    (mode : Nat) : Within (t.put loc (.file content mode)) t := by
  intro loc' e he hp
  by_cases h : loc' = loc
  · subst h
    rw [lookup?_put_self t hne] at he
    cases he
    exact absurd hp (not_passes_file content mode)
  · rwa [lookup?_put_of_ne t h] at he

def followLink (t : Tree) (followLast : Bool) (target : String) (dir : Location)
    (rest : List String) : Nat → Except FileError Target
  | 0 => .error .tooManyLinks
  | links + 1 =>
    t.walk followLast links (if (Route.ofString target).isAbsolute then [] else dir)
      ((Route.ofString target).walk ++ rest)

/-- The way along names from a directory to a directory, with the links that may be followed before
and after it. -/
inductive Leads (t : Tree) : Nat → Location → List String → Nat → Location → Prop where
  | here (links : Nat) (dir : Location) : Leads t links dir [] links dir
  | dot {links links' : Nat} {dir dir' : Location} {names : List String}
      (h : Leads t links dir names links' dir') : Leads t links dir ("." :: names) links' dir'
  | up {links links' : Nat} {dir dir' : Location} {names : List String}
      (h : Leads t links dir.dropLast names links' dir') :
      Leads t links dir (".." :: names) links' dir'
  | down {links links' : Nat} {dir dir' : Location} {name : String} {names : List String}
      {mode : Nat} (hdot : isDotName name = false) (hlen : name.utf8ByteSize ≤ maxNameBytes)
      (he : t.lookup? (dir ++ [name]) = some (.directory mode))
      (h : Leads t links (dir ++ [name]) names links' dir') :
      Leads t links dir (name :: names) links' dir'
  | link {links links' : Nat} {dir dir' : Location} {name : String} {names : List String}
      {target : String} (hdot : isDotName name = false)
      (hlen : name.utf8ByteSize ≤ maxNameBytes)
      (he : t.lookup? (dir ++ [name]) = some (.link target))
      (h : Leads t links (if (Route.ofString target).isAbsolute then [] else dir)
        ((Route.ofString target).walk ++ names) links' dir') :
      Leads t (links + 1) dir (name :: names) links' dir'

section

variable {t t' : Tree} {followLast : Bool} {links links' : Nat} {dir dir' : Location}
  {name : String} {names rest : List String}

theorem lookup?_append (t : Tree) (dir : Location) (name : String) :
    t.lookup? (dir ++ [name]) = (((t.trail (dir ++ [name])).here t)).entry := by
  rw [here_trail, lookup?, if_neg (by simp)]

theorem walk_nil : t.walk followLast links dir [] = .ok (.present dir) := by
  rw [walk]
  cases links <;> simp [follow, descend, location_trail]

theorem walk_dot : t.walk followLast links dir ("." :: names) = t.walk followLast links dir names := by
  rw [walk]
  cases links <;> simp [follow, descend]

theorem walk_up : t.walk followLast links dir (".." :: names) =
    t.walk followLast links dir.dropLast names := by
  rw [walk, walk, ← tail_trail]
  cases links <;> simp [follow, descend]

theorem walk_long (hdot : isDotName name = false) (h : maxNameBytes < name.utf8ByteSize) :
    t.walk followLast links dir (name :: names) = .error .nameTooLong := by
  simp only [isDotName, Bool.or_eq_false_iff, beq_eq_false_iff_ne] at hdot
  rw [walk]
  cases links <;> simp [follow, descend, hdot, h]

theorem walk_name (hdot : isDotName name = false) (h : name.utf8ByteSize ≤ maxNameBytes) :
    t.walk followLast links dir (name :: names) =
      match t.lookup? (dir ++ [name]) with
      | none => if names = [] then .ok (.vacant dir name) else .error .notFound
      | some (.directory _) => t.walk followLast links (dir ++ [name]) names
      | some (.link target) =>
        if names = [] ∧ followLast = false then .ok (.present (dir ++ [name]))
        else t.followLink followLast target dir names links
      | some _ => if names = [] then .ok (.present (dir ++ [name])) else .error .notDirectory := by
  simp only [isDotName, Bool.or_eq_false_iff, beq_eq_false_iff_ne] at hdot
  have hlen := Nat.not_lt.mpr h
  have hloc : ((t.trail dir).onward t name).location = dir ++ [name] := by
    rw [← trail_append, location_trail]
  have hentry : (((t.trail dir).onward t name).here t).entry = t.lookup? (dir ++ [name]) := by
    rw [lookup?_append, trail_append]
  have hroot : t.trail [] = [] := rfl
  cases he : t.lookup? (dir ++ [name]) with
  | none =>
      rw [he] at hentry
      cases links <;> simp [walk, follow, descend, hdot, hlen, hentry, location_trail]
  | some e =>
      rw [he] at hentry
      cases e <;> cases links <;>
        simp [walk, follow, descend, hdot, hlen, hentry, hloc, trail_append, followLink,
          apply_ite t.trail, hroot]

theorem descend_ne_removed {jump : Trail → List String → Except FileError Target}
    (hjump : ∀ dir names, jump dir names ≠ .ok .removed) (dir : Trail) (names : List String) :
    t.descend followLast jump dir names ≠ .ok .removed := by
  induction names generalizing dir with
  | nil => simp [descend]
  | cons name names ih =>
      rw [descend]
      split
      · exact ih dir
      · split
        · exact ih dir.tail
        · split
          · simp
          · dsimp only
            split
            · split <;> simp
            · exact ih _
            · split
              · simp
              · exact hjump _ _
            · split <;> simp

theorem walk_ne_removed : t.walk followLast links dir names ≠ .ok .removed := by
  have hfollow (dir : Trail) (names : List String) : t.follow followLast links dir names ≠ .ok .removed := by
    induction links generalizing dir names with
    | zero => exact descend_ne_removed (by simp) dir names
    | succ links ih => exact descend_ne_removed ih dir names
  exact hfollow _ names

theorem Leads.mono (hw : Within t t') (h : Leads t links dir names links' dir') :
    Leads t' links dir names links' dir' := by
  induction h with
  | here links dir => exact .here links dir
  | dot _ ih => exact .dot ih
  | up _ ih => exact .up ih
  | down hdot hlen he _ ih => exact .down hdot hlen (hw _ _ he (.inl rfl)) ih
  | link hdot hlen he _ ih => exact .link hdot hlen (hw _ _ he (.inr rfl)) ih

theorem Leads.walk_append (h : Leads t links dir names links' dir') (rest : List String) :
    t.walk true links dir (names ++ rest) = t.walk true links' dir' rest := by
  induction h with
  | here => rfl
  | dot _ ih => rw [List.cons_append, walk_dot, ih]
  | up _ ih => rw [List.cons_append, walk_up, ih]
  | down hdot hlen he _ ih => rw [List.cons_append, walk_name hdot hlen, he]; exact ih
  | link hdot hlen he _ ih =>
      rw [List.cons_append, walk_name hdot hlen, he]
      simp only [Bool.true_eq_false, and_false, if_false, followLink]
      rw [← ih, List.append_assoc]

theorem walk_cons_ok {target : Target} (hne : names ≠ [])
    (h : t.walk true links dir (name :: names) = .ok target) :
    (name = "." ∧ t.walk true links dir names = .ok target) ∨
    (name = ".." ∧ t.walk true links dir.dropLast names = .ok target) ∨
    (isDotName name = false ∧ name.utf8ByteSize ≤ maxNameBytes ∧
      ((∃ mode, t.lookup? (dir ++ [name]) = some (.directory mode) ∧
          t.walk true links (dir ++ [name]) names = .ok target) ∨
        ∃ link fewer, t.lookup? (dir ++ [name]) = some (.link link) ∧ links = fewer + 1 ∧
          t.walk true fewer (if (Route.ofString link).isAbsolute then [] else dir)
            ((Route.ofString link).walk ++ names) = .ok target)) := by
  cases hdot : isDotName name with
  | true =>
      simp only [isDotName, Bool.or_eq_true, beq_iff_eq] at hdot
      rcases hdot with rfl | rfl
      · rw [walk_dot] at h
        exact .inl ⟨rfl, h⟩
      · rw [walk_up] at h
        exact .inr (.inl ⟨rfl, h⟩)
  | false =>
      refine .inr (.inr ⟨rfl, ?_⟩)
      by_cases hlen : maxNameBytes < name.utf8ByteSize
      · rw [walk_long hdot hlen] at h
        cases h
      · have hlen := Nat.not_lt.mp hlen
        refine ⟨hlen, ?_⟩
        rw [walk_name hdot hlen] at h
        cases he : t.lookup? (dir ++ [name]) with
        | none => simp [he, hne] at h
        | some e =>
            cases e with
            | file => simp [he, hne] at h
            | pipe => simp [he, hne] at h
            | directory mode =>
                simp only [he] at h
                exact .inl ⟨mode, rfl, h⟩
            | link link =>
                simp only [he, hne, false_and, if_false] at h
                cases links with
                | zero => cases h
                | succ links => exact .inr ⟨link, links, rfl, rfl, h⟩

theorem leads_of_walk_append {target : Target} (hne : rest ≠ [])
    (h : t.walk true links dir (names ++ rest) = .ok target) :
    ∃ links' dir', Leads t links dir names links' dir' ∧
      t.walk true links' dir' rest = .ok target := by
  -- A link can make the names longer but spends one of the links, so these come first.
  induction links using Nat.strongRecOn generalizing dir names with
  | ind links ih =>
      induction names generalizing dir with
      | nil => exact ⟨links, dir, .here links dir, h⟩
      | cons name names ihn =>
          rcases walk_cons_ok (by simp [hne]) h with ⟨rfl, hw⟩ | ⟨rfl, hw⟩ | ⟨hdot, hlen, hstep⟩
          · obtain ⟨links', dir', hl, ht⟩ := ihn hw
            exact ⟨links', dir', .dot hl, ht⟩
          · obtain ⟨links', dir', hl, ht⟩ := ihn hw
            exact ⟨links', dir', .up hl, ht⟩
          · rcases hstep with ⟨mode, he, hw⟩ | ⟨link, fewer, he, rfl, hw⟩
            · obtain ⟨links', dir', hl, ht⟩ := ihn hw
              exact ⟨links', dir', .down hdot hlen he hl, ht⟩
            · rw [List.append_eq, ← List.append_assoc] at hw
              obtain ⟨links', dir', hl, ht⟩ := ih fewer (Nat.lt_succ_self _) hw
              exact ⟨links', dir', .link hdot hlen he hl, ht⟩

theorem leads_of_walk {target : Target} (h : t.walk true links dir (names ++ ["."]) = .ok target) :
    ∃ links' dir', Leads t links dir names links' dir' ∧ target = .present dir' := by
  obtain ⟨links', dir', hl, ht⟩ := leads_of_walk_append (by simp) h
  rw [walk_dot, walk_nil] at ht
  exact ⟨links', dir', hl, (Except.ok.inj ht).symm⟩

theorem Leads.append {links'' : Nat} {dir'' : Location} (h : Leads t links dir names links' dir')
    (h' : Leads t links' dir' rest links'' dir'') :
    Leads t links dir (names ++ rest) links'' dir'' := by
  induction h with
  | here => exact h'
  | dot _ ih => exact .dot (ih h')
  | up _ ih => exact .up (ih h')
  | down hdot hlen he _ ih => exact .down hdot hlen he (ih h')
  | link hdot hlen he _ ih =>
      have hrest := ih h'
      rw [List.append_assoc] at hrest
      exact .link hdot hlen he hrest

theorem Leads.unique {links'' : Nat} {dir'' : Location} (h : Leads t links dir names links' dir')
    (h' : Leads t links dir names links'' dir'') : dir' = dir'' := by
  have he : t.walk true links' dir' [] = t.walk true links'' dir'' [] := by
    rw [← h.walk_append, ← h'.walk_append]
  rw [walk_nil, walk_nil] at he
  exact Target.present.inj (Except.ok.inj he)

theorem climb_append (removed : Nat) (names : List String) :
    (∃ names', ∀ go rest, climb go removed (names ++ rest) = go (names' ++ rest)) ∨
    ∀ go loc, climb go removed (names ++ ["."]) ≠ .ok (.present loc) := by
  induction names generalizing removed with
  | nil =>
      cases removed with
      | zero => exact .inl ⟨[], fun _ _ => by rw [climb]⟩
      | succ removed => exact .inr fun go loc h => by simp [climb] at h
  | cons name names ih =>
      cases removed with
      | zero => exact .inl ⟨name :: names, fun _ _ => by rw [climb]⟩
      | succ removed =>
          by_cases hdot : name = "."
          · subst hdot
            simpa [climb] using ih (removed + 1)
          · by_cases hup : name = ".."
            · subst hup
              simpa [climb] using ih removed
            · exact .inr fun go loc h => by simp [climb, hdot, hup] at h

def LeadsFrom (t : Tree) (cwd : WorkingDirectory) (names : List String) (links : Nat)
    (dir : Location) : Prop :=
  ∃ names', (∀ go rest, climb go cwd.removed (names ++ rest) = go (names' ++ rest)) ∧
    Leads t maxLinks cwd.nearest names' links dir

theorem LeadsFrom.mono {cwd : WorkingDirectory} (hw : Within t t')
    (h : t.LeadsFrom cwd names links dir) : t'.LeadsFrom cwd names links dir := by
  obtain ⟨names', hc, hl⟩ := h
  exact ⟨names', hc, hl.mono hw⟩

theorem LeadsFrom.walkFrom_append {cwd : WorkingDirectory} (h : t.LeadsFrom cwd names links dir)
    (rest : List String) : t.walkFrom cwd true (names ++ rest) = t.walk true links dir rest := by
  obtain ⟨names', hc, hl⟩ := h
  rw [walkFrom, hc, hl.walk_append]

theorem walkFrom_dot_iff {cwd : WorkingDirectory} :
    t.walkFrom cwd true (names ++ ["."]) = .ok (.present dir) ↔
      ∃ links, t.LeadsFrom cwd names links dir := by
  constructor
  · intro h
    rcases climb_append cwd.removed names with ⟨names', hc⟩ | hn
    · rw [walkFrom, hc] at h
      obtain ⟨links', dir', hl, ht⟩ := leads_of_walk h
      cases ht
      exact ⟨links', names', hc, hl⟩
    · exact absurd h (hn _ _)
  · rintro ⟨links, h⟩
    rw [h.walkFrom_append, walk_dot, walk_nil]

theorem leadsFrom_root_iff :
    t.LeadsFrom .root names links dir ↔ t.Leads maxLinks [] names links dir := by
  constructor
  · rintro ⟨names', hc, hl⟩
    have h := hc (fun names => .ok (.present names)) []
    simp only [WorkingDirectory.root, WorkingDirectory.ofLocation, climb, List.append_nil,
      Except.ok.injEq, Target.present.injEq] at h
    rwa [h]
  · intro h
    exact ⟨names, fun _ _ => by simp [WorkingDirectory.root, WorkingDirectory.ofLocation, climb], h⟩

theorem climb_name {go : List String → Except FileError Target} {removed : Nat} {target : Target}
    (hdot : isDotName name = false) (h : climb go removed (names ++ [name]) = .ok target) :
    ∃ names', go (names' ++ [name]) = .ok target := by
  simp only [isDotName, Bool.or_eq_false_iff, beq_eq_false_iff_ne] at hdot
  induction names generalizing removed with
  | nil =>
      cases removed with
      | zero => exact ⟨[], by simpa [climb] using h⟩
      | succ removed => simp [climb, hdot] at h
  | cons n names ih =>
      cases removed with
      | zero => exact ⟨n :: names, by simpa [climb] using h⟩
      | succ removed =>
          rw [List.cons_append, climb] at h
          split at h
          · exact ih h
          · split at h
            · exact ih h
            · cases h

theorem last_of_walkFrom {cwd : WorkingDirectory} {loc : Location} (hdot : isDotName name = false)
    (h : t.walkFrom cwd true (names ++ [name]) = .ok (.present loc)) :
    (∃ dir, loc = dir ++ [name]) ∨ ∃ dir target, t.lookup? (dir ++ [name]) = some (.link target) := by
  obtain ⟨names', hwalk⟩ := climb_name hdot h
  obtain ⟨links, dir, _, hlast⟩ := leads_of_walk_append (by simp) hwalk
  rcases Nat.lt_or_ge maxNameBytes name.utf8ByteSize with hlong | hlen
  · rw [walk_long hdot hlong] at hlast
    cases hlast
  rw [walk_name hdot hlen] at hlast
  cases he : t.lookup? (dir ++ [name]) with
  | none => simp [he] at hlast
  | some e =>
      cases e with
      | link target => exact .inr ⟨dir, target, he⟩
      | directory =>
          simp only [he, walk_nil, Except.ok.injEq, Target.present.injEq] at hlast
          exact .inl ⟨dir, hlast.symm⟩
      | file =>
          simp only [he, if_true, Except.ok.injEq, Target.present.injEq] at hlast
          exact .inl ⟨dir, hlast.symm⟩
      | pipe =>
          simp only [he, if_true, Except.ok.injEq, Target.present.injEq] at hlast
          exact .inl ⟨dir, hlast.symm⟩

theorem entryAt_resolve_file_iff {cwd : WorkingDirectory} {path : String} {content : ByteArray}
    {mode : Nat} : (t.resolve cwd followLast path >>= t.entryAt) = .ok (.file content mode) ↔
      checkPath path = .ok () ∧ ∃ loc, t.target cwd followLast (.ofString path) = .ok (.present loc) ∧
        t.lookup? loc = some (.file content mode) := by
  constructor
  · intro h
    simp only [resolve, bind, Except.bind] at h
    split at h
    · cases h
    next target htarget =>
    split at htarget
    · cases htarget
    next hcheck =>
    cases target with
    | present loc =>
        refine ⟨hcheck, loc, htarget, ?_⟩
        rw [entryAt] at h
        split at h
        · next he => rw [he, Except.ok.inj h]
        · cases h
    | vacant => cases h
    | removed => cases h
  · rintro ⟨hcheck, loc, htarget, he⟩
    simp only [resolve, hcheck, htarget, bind, Except.bind, entryAt, he]

theorem status_file {cwd : WorkingDirectory} {path : String} {content : ByteArray} {mode : Nat}
    (h : t.status cwd path = .ok (.file content mode)) :
    ∃ loc, t.target cwd true (.ofString path) = .ok (.present loc) ∧
      t.lookup? loc = some (.file content mode) :=
  (entryAt_resolve_file_iff.mp h).2

theorem slot_eq_some_iff {cwd : WorkingDirectory} {route : Route} {s : Slot} :
    t.slot cwd route = .ok (some s) ↔
      ∃ names links, route.names = names ++ [s.name] ∧ isDotName s.name = false ∧
        s.slash = route.endsInSlash ∧ t.LeadsFrom (origin cwd route) names links s.dir := by
  rcases List.eq_nil_or_concat route.names with hn | ⟨names, name, hn⟩
  · simp [slot, hn, pure, Except.pure]
  · rw [List.concat_eq_append] at hn
    simp only [slot, hn, List.getLast?_concat, List.dropLast_concat, bind, Except.bind, pure,
      Except.pure]
    constructor
    · intro h
      split at h
      · cases h
      · next target hw =>
        split at h
        · cases h
        · next hdot =>
          split at h
          · cases h
          · next dir ht =>
            cases h
            cases target <;> cases ht
            obtain ⟨links, hl⟩ := walkFrom_dot_iff.mp hw
            exact ⟨names, links, rfl, by simpa using hdot, rfl, hl⟩
    · rintro ⟨names', links, hn', hdot, hs, hl⟩
      obtain ⟨rfl, hname⟩ := List.append_inj' hn' rfl
      obtain rfl := List.head_eq_of_cons_eq hname
      rw [walkFrom_dot_iff.mpr ⟨links, hl⟩]
      simp [hdot, Target.location, ← hs]

theorem slot_mono {cwd : WorkingDirectory} {route : Route} {s : Slot} (hw : Within t t')
    (h : t.slot cwd route = .ok (some s)) : t'.slot cwd route = .ok (some s) := by
  obtain ⟨names, links, hnames, hdot, hs, hl⟩ := slot_eq_some_iff.mp h
  exact slot_eq_some_iff.mpr ⟨names, links, hnames, hdot, hs, hl.mono hw⟩

theorem target_of_slot {cwd : WorkingDirectory} {route : Route} {s : Slot} {content : ByteArray}
    {mode : Nat} (h : t.slot cwd route = .ok (some s)) (hslash : s.slash = false)
    (hlen : s.name.utf8ByteSize ≤ maxNameBytes)
    (he : t.lookup? s.location = some (.file content mode)) :
    t.target cwd true route = .ok (.present s.location) := by
  obtain ⟨names, links, hnames, hdot, hs, hl⟩ := slot_eq_some_iff.mp h
  rw [Slot.location] at he ⊢
  rw [target, Route.walk, if_neg (by simp [← hs, hslash]), hnames, hl.walkFrom_append,
    walk_name hdot hlen, he]
  rfl

end

end Tree

end PluginConsent
