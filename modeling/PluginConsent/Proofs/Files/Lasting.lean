import PluginConsent.Proofs.Files.Direct

namespace PluginConsent

theorem climb_mono {go go' : List String → Except FileError Target} {loc : Location}
    (hgo : ∀ names, go names = .ok (.present loc) → go' names = .ok (.present loc)) {removed : Nat}
    {names : List String} (h : Tree.climb go removed names = .ok (.present loc)) :
    Tree.climb go' removed names = .ok (.present loc) := by
  induction names generalizing removed with
  | nil =>
      cases removed with
      | zero => exact hgo [] h
      | succ removed => simp [Tree.climb] at h
  | cons name names ih =>
      cases removed with
      | zero => exact hgo (name :: names) h
      | succ removed =>
          rw [Tree.climb] at h ⊢
          split at h
          · next hdot =>
            rw [if_pos hdot]
            exact ih h
          · next hdot =>
            rw [if_neg hdot]
            split at h
            · next hup =>
              rw [if_pos hup]
              exact ih h
            · cases h

namespace Tree

section

variable {t t' : Tree} {links links' more : Nat} {dir dir' loc : Location} {name : String}
  {names rest : List String} {cwd : WorkingDirectory}

theorem Leads.le (h : t.Leads links dir names links' dir') : links' ≤ links := by
  induction h with
  | here => exact Nat.le_refl _
  | dot _ ih => exact ih
  | up _ ih => exact ih
  | down _ _ _ _ ih => exact ih
  | link _ _ _ _ ih => exact Nat.le_succ_of_le ih

theorem Leads.add (h : t.Leads links dir names links' dir') (spare : Nat) :
    t.Leads (links + spare) dir names (links' + spare) dir' := by
  induction h with
  | here links dir => exact .here _ dir
  | dot _ ih => exact .dot ih
  | up _ ih => exact .up ih
  | down hdot hlen he _ ih => exact .down hdot hlen he ih
  | link hdot hlen he _ ih =>
      rw [Nat.add_right_comm]
      exact .link hdot hlen he ih

theorem Leads.split (h : t.Leads links dir (names ++ rest) links' dir') :
    ∃ between mid, t.Leads links dir names between mid ∧ t.Leads between mid rest links' dir' := by
  generalize hall : names ++ rest = all at h
  induction h generalizing names with
  | here links dir =>
      obtain ⟨rfl, rfl⟩ := List.append_eq_nil_iff.mp hall
      exact ⟨links, dir, .here links dir, .here links dir⟩
  | @dot links links' dir dir' all h ih =>
      rcases List.append_eq_cons_iff.mp hall with ⟨rfl, rfl⟩ | ⟨names, rfl, rfl⟩
      · exact ⟨links, dir, .here links dir, .dot h⟩
      · obtain ⟨between, mid, hl, hr⟩ := ih rfl
        exact ⟨between, mid, .dot hl, hr⟩
  | @up links links' dir dir' all h ih =>
      rcases List.append_eq_cons_iff.mp hall with ⟨rfl, rfl⟩ | ⟨names, rfl, rfl⟩
      · exact ⟨links, dir, .here links dir, .up h⟩
      · obtain ⟨between, mid, hl, hr⟩ := ih rfl
        exact ⟨between, mid, .up hl, hr⟩
  | @down links links' dir dir' name all mode hdot hlen he h ih =>
      rcases List.append_eq_cons_iff.mp hall with ⟨rfl, rfl⟩ | ⟨names, rfl, rfl⟩
      · exact ⟨links, dir, .here links dir, .down hdot hlen he h⟩
      · obtain ⟨between, mid, hl, hr⟩ := ih rfl
        exact ⟨between, mid, .down hdot hlen he hl, hr⟩
  | @link links links' dir dir' name all target hdot hlen he h ih =>
      rcases List.append_eq_cons_iff.mp hall with ⟨rfl, rfl⟩ | ⟨names, rfl, rfl⟩
      · exact ⟨links + 1, dir, .here _ dir, .link hdot hlen he h⟩
      · obtain ⟨between, mid, hl, hr⟩ := ih (List.append_assoc _ _ _)
        exact ⟨between, mid, .link hdot hlen he hl, hr⟩

theorem walk_of_not_passes {e : Entry} (hdot : isDotName name = false)
    (hlen : name.utf8ByteSize ≤ maxNameBytes) (he : t.lookup? (dir ++ [name]) = some e) (hp : ¬ Passes e) :
    t.walk true links dir [name] = .ok (.present (dir ++ [name])) := by
  rw [walk_name hdot hlen, he]
  cases e with
  | file => rfl
  | pipe => rfl
  | directory => exact absurd (.inl rfl) hp
  | link => exact absurd (.inr rfl) hp

/-- The ways a walk can find something: its names lead to a directory; the last one is the name of
something that no way leads through; or it is that of a link, from which another walk goes on. -/
theorem walk_present_cases (h : t.walk true links dir names = .ok (.present loc)) :
    (∃ links', t.Leads links dir names links' loc) ∨
    ∃ init name links' dir', names = init ++ [name] ∧ t.Leads links dir init links' dir' ∧
      isDotName name = false ∧ name.utf8ByteSize ≤ maxNameBytes ∧
      ((∃ e, t.lookup? (dir' ++ [name]) = some e ∧ ¬ Passes e ∧ loc = dir' ++ [name]) ∨
        ∃ target fewer, t.lookup? (dir' ++ [name]) = some (.link target) ∧ links' = fewer + 1 ∧
          t.walk true fewer (if (Route.ofString target).isAbsolute then [] else dir')
            (Route.ofString target).walk = .ok (.present loc)) := by
  rcases List.eq_nil_or_concat names with rfl | ⟨init, name, rfl⟩
  · rw [walk_nil] at h
    cases h
    exact .inl ⟨links, .here links dir⟩
  rw [List.concat_eq_append] at h ⊢
  -- Up to the last name the walk leads from directory to directory, so what ends it is at that name.
  obtain ⟨links', dir', hl, hlast⟩ := leads_of_walk_append (by simp) h
  cases hdot : isDotName name with
  | true =>
      simp only [isDotName, Bool.or_eq_true, beq_iff_eq] at hdot
      rcases hdot with rfl | rfl
      · rw [walk_dot, walk_nil] at hlast
        cases hlast
        exact .inl ⟨links', hl.append (.dot (.here links' _))⟩
      · rw [walk_up, walk_nil] at hlast
        cases hlast
        exact .inl ⟨links', hl.append (.up (.here links' _))⟩
  | false =>
      rcases Nat.lt_or_ge maxNameBytes name.utf8ByteSize with hlong | hlen
      · rw [walk_long hdot hlong] at hlast
        cases hlast
      rw [walk_name hdot hlen] at hlast
      cases he : t.lookup? (dir' ++ [name]) with
      | none => simp [he] at hlast
      | some e =>
          cases e with
          | directory mode =>
              simp only [he, walk_nil] at hlast
              cases hlast
              exact .inl ⟨links', hl.append (.down hdot hlen he (.here links' _))⟩
          | file content mode =>
              simp only [he, if_true] at hlast
              cases hlast
              exact .inr ⟨init, name, links', dir', rfl, hl, hdot, hlen,
                .inl ⟨_, he, not_passes_file content mode, rfl⟩⟩
          | pipe mode =>
              simp only [he, if_true] at hlast
              cases hlast
              exact .inr ⟨init, name, links', dir', rfl, hl, hdot, hlen,
                .inl ⟨_, he, by simp [Passes, Entry.isDirectory, Entry.isLink], rfl⟩⟩
          | link target =>
              simp only [he, Bool.true_eq_false, and_false, if_false] at hlast
              cases links' with
              | zero => cases hlast
              | succ fewer =>
                  rw [followLink, List.append_nil] at hlast
                  exact .inr ⟨init, name, fewer + 1, dir', rfl, hl, hdot, hlen,
                    .inr ⟨target, fewer, he, rfl, hlast⟩⟩

/-- A walk that finds something finds it as well with more links to spare, and in every tree that has what
the walk passes and what it finds. -/
theorem walk_mono (hw : Within t t') (hend : ∀ e, t.lookup? loc = some e → t'.lookup? loc = some e)
    (hle : links ≤ more) (h : t.walk true links dir names = .ok (.present loc)) :
    t'.walk true more dir names = .ok (.present loc) := by
  -- Only a link at the end starts another walk, and that has fewer links.
  induction links using Nat.strongRecOn generalizing dir names more with
  | ind links ih =>
      obtain ⟨spare, rfl⟩ := Nat.exists_eq_add_of_le hle
      rcases walk_present_cases h with
        ⟨_, hl⟩ | ⟨init, name, links', dir', rfl, hl, hdot, hlen,
          ⟨e, he, hp, rfl⟩ | ⟨target, fewer, he, rfl, hlast⟩⟩
      · rw [← List.append_nil names, ((hl.mono hw).add spare).walk_append, walk_nil]
      · rw [((hl.mono hw).add spare).walk_append, walk_of_not_passes hdot hlen (hend e he) hp]
      · rw [((hl.mono hw).add spare).walk_append, walk_name hdot hlen, hw _ _ he (.inr rfl),
          Nat.add_right_comm]
        simp only [Bool.true_eq_false, and_false, if_false, followLink, List.append_nil]
        exact ih fewer hl.le (Nat.le_add_right fewer spare) hlast

theorem walkFrom_mono (hw : Within t t')
    (hend : ∀ e, t.lookup? loc = some e → t'.lookup? loc = some e)
    (h : t.walkFrom cwd true names = .ok (.present loc)) :
    t'.walkFrom cwd true names = .ok (.present loc) :=
  climb_mono (fun _ => walk_mono hw hend (Nat.le_refl _)) h

theorem status_file_iff {path : String} {content : ByteArray} {mode : Nat} :
    t.status cwd path = .ok (.file content mode) ↔ checkPath path = .ok () ∧
      ∃ loc, t.target cwd true (.ofString path) = .ok (.present loc) ∧
        t.lookup? loc = some (.file content mode) :=
  entryAt_resolve_file_iff

theorem Grown.status_file (h : t.Grown t') {path : String} {content : ByteArray} {mode : Nat}
    (hs : t.status cwd path = .ok (.file content mode)) :
    t'.status cwd path = .ok (.file content mode) := by
  obtain ⟨hcheck, loc, htarget, he⟩ := status_file_iff.mp hs
  exact status_file_iff.mpr
    ⟨hcheck, loc, walkFrom_mono h.within (fun _ => h.kept) htarget, h.kept he⟩

theorem Leads.walk_last (h : t.Leads links dir names links' dir') (followLast : Bool) (last : String) :
    t.walk followLast links dir (names ++ [last]) = t.walk followLast links' dir' [last] := by
  induction h with
  | here => rfl
  | dot _ ih => rw [List.cons_append, walk_dot, ih]
  | up _ ih => rw [List.cons_append, walk_up, ih]
  | down hdot hlen he _ ih =>
      rw [List.cons_append, walk_name hdot hlen, he]
      exact ih
  | link hdot hlen he _ ih =>
      rw [List.cons_append, walk_name hdot hlen, he]
      simp only [List.append_eq_nil_iff, List.cons_ne_nil, and_false, false_and, if_false, followLink]
      rw [← ih, List.append_assoc]

theorem linkStatus_of_slot {path target : String} {s : Slot} (hcheck : checkPath path = .ok ())
    (h : t.slot cwd (.ofString path) = .ok (some s)) (hslash : s.slash = false)
    (hlen : s.name.utf8ByteSize ≤ maxNameBytes) (he : t.lookup? s.location = some (.link target)) :
    t.linkStatus cwd path = .ok (.link target) := by
  obtain ⟨names, links, hnames, hdot, hs, names', hc, hl⟩ := slot_eq_some_iff.mp h
  rw [Slot.location] at he
  have htarget : t.target cwd false (.ofString path) = .ok (.present (s.dir ++ [s.name])) := by
    rw [Tree.target, Route.walk, if_neg (by simp [← hs, hslash]), hnames, walkFrom, hc, hl.walk_last,
      walk_name hdot hlen, he]
    rfl
  simp only [linkStatus, resolve, hcheck, htarget, bind, Except.bind, entryAt, he]

theorem walk_followed (hend : ∀ target, t.lookup? loc ≠ some (.link target))
    (h : t.walk false links dir names = .ok (.present loc)) :
    t.walk true links dir names = .ok (.present loc) := by
  -- Where a link is followed there are fewer links left, otherwise fewer names.
  induction links using Nat.strongRecOn generalizing dir names with
  | ind links ih =>
      induction names generalizing dir with
      | nil => rwa [walk_nil] at h ⊢
      | cons name names ihn =>
          cases hdot : isDotName name with
          | true =>
              simp only [isDotName, Bool.or_eq_true, beq_iff_eq] at hdot
              rcases hdot with rfl | rfl
              · rw [walk_dot] at h ⊢
                exact ihn h
              · rw [walk_up] at h ⊢
                exact ihn h
          | false =>
              rcases Nat.lt_or_ge maxNameBytes name.utf8ByteSize with hlong | hlen
              · rw [walk_long hdot hlong] at h
                cases h
              rw [walk_name hdot hlen] at h ⊢
              cases he : t.lookup? (dir ++ [name]) with
              | none => simpa only [he] using h
              | some e =>
                  cases e with
                  | file => simpa only [he] using h
                  | pipe => simpa only [he] using h
                  | directory =>
                      simp only [he] at h ⊢
                      exact ihn h
                  | link target =>
                      simp only [he, and_true, Bool.true_eq_false, and_false, if_false] at h ⊢
                      split at h
                      · cases h
                        exact absurd he (hend target)
                      · cases links with
                        | zero => cases h
                        | succ fewer => exact ih fewer (Nat.lt_succ_self fewer) h

theorem status_of_linkStatus {path : String} {content : ByteArray} {mode : Nat}
    (h : t.linkStatus cwd path = .ok (.file content mode)) :
    t.status cwd path = .ok (.file content mode) := by
  obtain ⟨hcheck, loc, htarget, he⟩ := entryAt_resolve_file_iff.mp h
  have hend : ∀ target, t.lookup? loc ≠ some (.link target) := by
    intro target hlink
    rw [he] at hlink
    cases hlink
  exact status_file_iff.mpr
    ⟨hcheck, loc, climb_mono (fun _ => walk_followed hend) htarget, he⟩

section

variable {path : String} {content : ByteArray} {s : Slot}

theorem Replaced.not_passes (h : t.Replaced cwd path content s t')
    (hlink : ∀ target, t.linkStatus cwd path ≠ .ok (.link target)) {e : Entry}
    (he : t.lookup? s.location = some e) : ¬ Passes e := by
  rintro (hdirectory | hislink)
  · cases e <;> cases hdirectory
    have hfree := h.free
    rw [isDirectoryAt_iff.mpr ⟨_, he⟩] at hfree
    cases hfree
  · cases e <;> cases hislink
    exact hlink _ (linkStatus_of_slot h.usable h.slot h.slash h.short he)

theorem Replaced.within (h : t.Replaced cwd path content s t')
    (hlink : ∀ target, t.linkStatus cwd path ≠ .ok (.link target)) : Within t t' := by
  intro loc e he hp
  rw [h.other loc (by rintro rfl; exact h.not_passes hlink he hp), he]

theorem Replaced.standsApart (h : t.Replaced cwd path content s t')
    (hlink : ∀ target, t.linkStatus cwd path ≠ .ok (.link target)) : t.StandsApart cwd path := by
  refine standsApart_of_not_passes fun s' e hs' he => ?_
  obtain rfl : s = s' := by simpa using h.slot.symm.trans hs'
  exact h.not_passes hlink he

end

theorem Proper.leads (ht : t.Proper) (hd : t.isDirectoryAt dir = true)
    (h : t.Leads links dir names links' dir') : t.isDirectoryAt dir' = true := by
  induction h with
  | here => exact hd
  | dot _ ih => exact ih hd
  | @up _ _ dir _ _ _ ih =>
      refine ih ?_
      rcases List.eq_nil_or_concat dir with rfl | ⟨up, name, rfl⟩
      · exact hd
      · rw [List.concat_eq_append] at hd ⊢
        obtain ⟨mode, he⟩ := isDirectoryAt_iff.mp hd
        rw [List.dropLast_concat]
        exact ht.rooted up name _ he
  | down _ _ he _ ih => exact ih (isDirectoryAt_iff.mpr ⟨_, he⟩)
  | link _ _ he _ ih =>
      refine ih ?_
      split
      · rfl
      · exact ht.rooted _ _ _ he

theorem isDirectoryAt_origin (hcwd : t.isDirectoryAt cwd.nearest = true) (route : Route) :
    t.isDirectoryAt (origin cwd route).nearest = true := by
  rw [origin]
  split
  · rfl
  · exact hcwd

theorem Proper.slot_dir (ht : t.Proper) (hcwd : t.isDirectoryAt cwd.nearest = true) {route : Route}
    {s : Slot} (hs : t.slot cwd route = .ok (some s)) : t.isDirectoryAt s.dir = true := by
  obtain ⟨_, _, _, _, _, _, _, hl⟩ := slot_eq_some_iff.mp hs
  exact ht.leads (isDirectoryAt_origin hcwd route) hl

theorem Proper.walk_present (ht : t.Proper) (hd : t.isDirectoryAt dir = true)
    (h : t.walk true links dir names = .ok (.present loc)) :
    ∃ e, t.lookup? loc = some e ∧ e.isLink = false := by
  induction links using Nat.strongRecOn generalizing dir names with
  | ind links ih =>
      rcases walk_present_cases h with
        ⟨_, hl⟩ | ⟨_, _, _, _, rfl, hl, _, _, ⟨e, he, hp, rfl⟩ | ⟨_, fewer, _, rfl, hlast⟩⟩
      · obtain ⟨mode, he⟩ := isDirectoryAt_iff.mp (ht.leads hd hl)
        exact ⟨_, he, rfl⟩
      · exact ⟨e, he, by simpa using fun hlink => hp (.inr hlink)⟩
      · refine ih fewer hl.le ?_ hlast
        split
        · rfl
        · exact ht.leads hd hl

theorem Within.reachable (h : Within t t') : Within t.reachable t'.reachable := by
  intro loc e he hp
  rw [lookup?_reachable] at he ⊢
  split at he
  · next hfits =>
    rw [if_pos hfits]
    exact h loc e he hp
  · cases he

theorem canonical_ok_iff {path : String} : t.canonical cwd path = .ok loc ↔ checkText path = .ok () ∧
    ∃ dir, (origin cwd (.ofString path)).location? = some dir ∧
      t.reachable.walk true maxLinks dir (Route.ofString path).walk = .ok (.present loc) := by
  rw [canonical]
  cases checkText path with
  | error e => simp [bind, Except.bind]
  | ok =>
      cases ho : (origin cwd (.ofString path)).location? with
      | none => simp [bind, Except.bind, ho, throw, throwThe, MonadExceptOf.throw]
      | some dir =>
          cases hw : t.reachable.walk true maxLinks dir (Route.ofString path).walk with
          | error e => simp [bind, Except.bind, ho, hw]
          | ok target => cases target <;> simp [bind, Except.bind, ho, hw, Target.location]

theorem canonical_mono (hw : Within t t') {path : String} (hd : t.isDirectoryAt loc = true)
    (h : t.canonical cwd path = .ok loc) : t'.canonical cwd path = .ok loc := by
  obtain ⟨hcheck, dir, hdir, hwalk⟩ := canonical_ok_iff.mp h
  refine canonical_ok_iff.mpr ⟨hcheck, dir, hdir, walk_mono hw.reachable (fun e he => ?_)
    (Nat.le_refl _) hwalk⟩
  refine hw.reachable loc e he (.inl ?_)
  rw [lookup?_reachable] at he
  split at he
  · rw [isDirectoryAt, he] at hd
    exact hd
  · cases he

theorem Proper.canonical_present (ht : t.Proper) (hcwd : t.isDirectoryAt cwd.nearest = true)
    {path : String} (h : t.canonical cwd path = .ok loc) :
    ∃ e, t.lookup? loc = some e ∧ e.isLink = false := by
  obtain ⟨_, dir, hdir, hwalk⟩ := canonical_ok_iff.mp h
  have hkept (loc : Location) (e : Entry) (he : t.reachable.lookup? loc = some e) :
      t.lookup? loc = some e := by
    rw [lookup?_reachable] at he
    split at he
    · exact he
    · cases he
  refine ht.walk_present ?_ (walk_mono (fun loc e he _ => hkept loc e he) (hkept loc) (Nat.le_refl _) hwalk)
  have hnearest : dir = (origin cwd (.ofString path)).nearest := by
    rw [WorkingDirectory.location?] at hdir
    split at hdir
    · exact (Option.some.inj hdir).symm
    · cases hdir
  rw [hnearest]
  exact isDirectoryAt_origin hcwd _

/-- No way to a link leads through the link itself, if that leads to a file: on such a way it would lead
to a directory. -/
theorem Proper.not_leads_through (ht : t.Proper) {target : String}
    (he : t.lookup? (dir ++ [name]) = some (.link target)) (hdot : isDotName name = false)
    (hlen : name.utf8ByteSize ≤ maxNameBytes)
    (hend : t.walk true links' dir [name] = .ok (.present loc)) (hfile : t.isDirectoryAt loc = false)
    (h : t.Leads links (if (Route.ofString target).isAbsolute then [] else dir)
      ((Route.ofString target).walk ++ rest) links' dir) : False := by
  obtain ⟨between, mid, hthrough, hrest⟩ := h.split
  have hmid : t.isDirectoryAt mid = true := by
    refine ht.leads ?_ hthrough
    split
    · rfl
    · exact ht.rooted _ _ _ he
  rw [walk_name hdot hlen, he] at hend
  simp only [Bool.true_eq_false, and_false, if_false] at hend
  cases links' with
  | zero => cases hend
  | succ fewer =>
      have hle : fewer ≤ links :=
        Nat.le_of_succ_le (Nat.le_trans hrest.le hthrough.le)
      have hwalk := walk_mono (fun _ _ he _ => he) (fun _ he => he) hle hend
      rw [hthrough.walk_append, walk_nil] at hwalk
      obtain rfl := Target.present.inj (Except.ok.inj hwalk)
      rw [hfile] at hmid
      cases hmid

theorem Leads.erase (ht : t.Proper) (hend : t.walk true links' dir' [name] = .ok (.present loc))
    (hfile : t.isDirectoryAt loc = false) (h : t.Leads links dir names links' dir') :
    (t.erase (dir' ++ [name])).Leads links dir names links' dir' := by
  induction h with
  | here links dir => exact .here links dir
  | dot _ ih => exact .dot (ih hend)
  | up _ ih => exact .up (ih hend)
  | @down _ _ dir dir' n _ _ hdot hlen he _ ih =>
      have hne : dir ++ [n] ≠ dir' ++ [name] := by
        intro heq
        obtain ⟨rfl, hn⟩ := List.append_inj' heq rfl
        obtain rfl := List.head_eq_of_cons_eq hn
        simp only [walk_name hdot hlen, he, walk_nil, Except.ok.injEq, Target.present.injEq] at hend
        rw [← hend, isDirectoryAt, he] at hfile
        cases hfile
      exact .down hdot hlen ((lookup?_erase_of_ne t hne).trans he) (ih hend)
  | @link _ _ dir dir' n _ _ hdot hlen he h ih =>
      have hne : dir ++ [n] ≠ dir' ++ [name] := by
        intro heq
        obtain ⟨rfl, hn⟩ := List.append_inj' heq rfl
        obtain rfl := List.head_eq_of_cons_eq hn
        exact ht.not_leads_through he hdot hlen hend hfile h
      exact .link hdot hlen ((lookup?_erase_of_ne t hne).trans he) (ih hend)

theorem Proper.standsApart (ht : t.Proper) (hcwd : t.isDirectoryAt cwd.nearest = true) {path : String}
    {content : ByteArray} {mode : Nat} (h : t.status cwd path = .ok (.file content mode)) :
    t.StandsApart cwd path := by
  intro s hs
  obtain ⟨_, loc, htarget, hfile⟩ := status_file_iff.mp h
  have hdirectory : t.isDirectoryAt loc = false := by
    rw [isDirectoryAt, hfile]
    rfl
  obtain ⟨names, links, hnames, hdot, hslash, names', hc, hl⟩ := slot_eq_some_iff.mp hs
  refine slot_eq_some_iff.mpr ⟨names, links, hnames, hdot, hslash, names', hc, ?_⟩
  cases hend : (Route.ofString path).endsInSlash with
  | true =>
      rw [target, Route.walk, if_pos hend] at htarget
      obtain ⟨_, _, _, hall⟩ := walkFrom_dot_iff.mp htarget
      rw [ht.leads (isDirectoryAt_origin hcwd _) hall] at hdirectory
      cases hdirectory
  | false =>
      rw [target, Route.walk, hend, if_neg Bool.false_ne_true, hnames, walkFrom, hc, hl.walk_append]
        at htarget
      exact hl.erase ht htarget hdirectory

end

end Tree

end PluginConsent
