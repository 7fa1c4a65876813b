import PluginConsent.Proofs.Files.Parent
import PluginConsent.Proofs.Files.Proper

namespace PluginConsent.Tree

def GrownAlong (t : Tree) (dir : Location) (t' : Tree) : Prop :=
  ∀ loc, t'.lookup? loc = t.lookup? loc ∨
    t.lookup? loc = none ∧ t'.lookup? loc = some (.directory directoryMode) ∧ loc <+: dir

section

variable {t t' t'' : Tree} {cwd : WorkingDirectory} {route up : Route} {links links' : Nat}
  {dir dir' : Location} {name : String} {names rest dots : List String}

theorem GrownAlong.refl (t : Tree) (dir : Location) : t.GrownAlong dir t := fun _ => .inl rfl

theorem GrownAlong.lookup?_eq_none (h : t.GrownAlong dir t') {loc : Location}
    (hn : t'.lookup? loc = none) : t.lookup? loc = none := by
  rcases h loc with he | ⟨hnone, _⟩
  · rw [← he, hn]
  · exact hnone

theorem GrownAlong.put (h : t.GrownAlong dir t') (hn : t'.lookup? (dir ++ [name]) = none) :
    t.GrownAlong (dir ++ [name]) (t'.put (dir ++ [name]) (.directory directoryMode)) := by
  intro loc
  by_cases hloc : loc = dir ++ [name]
  · rw [hloc]
    exact .inr ⟨h.lookup?_eq_none hn, lookup?_put_self t' (by simp) _, List.prefix_rfl⟩
  · rw [lookup?_put_of_ne t' hloc]
    rcases h loc with he | ⟨hnone, hd, hp⟩
    · exact .inl he
    · exact .inr ⟨hnone, hd, hp.trans (List.prefix_append _ _)⟩

theorem leads_dots (h : Route.Dots dots) (links : Nat) (dir : Location) :
    t.Leads links dir dots links dir := by
  induction dots with
  | nil => exact .here links dir
  | cons d dots ih =>
      obtain rfl := h d (by simp)
      exact .dot (ih fun n hn => h n (by simp [hn]))

theorem LeadsFrom.append (h : t.LeadsFrom cwd names links dir) (h' : t.Leads links dir rest links' dir') :
    t.LeadsFrom cwd (names ++ rest) links' dir' := by
  obtain ⟨names', hc, hl⟩ := h
  refine ⟨names' ++ rest, fun go more => ?_, hl.append h'⟩
  rw [List.append_assoc, hc, List.append_assoc]

theorem LeadsFrom.unique (h : t.LeadsFrom cwd names links dir)
    (h' : t.LeadsFrom cwd names links' dir') : dir = dir' := by
  have he : t.walk true links dir [] = t.walk true links' dir' [] := by
    rw [← h.walkFrom_append, ← h'.walkFrom_append]
  rw [walk_nil, walk_nil] at he
  exact Target.present.inj (Except.ok.inj he)

theorem LeadsFrom.down (h : t.LeadsFrom cwd names links dir) (hdot : isDotName name = false)
    (hlen : name.utf8ByteSize ≤ maxNameBytes)
    (hd : t.lookup? (dir ++ [name]) = some (.directory directoryMode)) :
    t.LeadsFrom cwd (names ++ [name]) links (dir ++ [name]) :=
  h.append (.down hdot hlen hd (.here _ _))

theorem origin_eq (h : up.start = route.start) : origin cwd up = origin cwd route := by
  rw [origin, origin, Route.isAbsolute, Route.isAbsolute, h]

/-- What has been made for a path: its names lead to a new directory, and nothing else is new but
directories on the way down to that. -/
structure MadeFor (t : Tree) (cwd : WorkingDirectory) (route : Route) (dir : Location)
    (t' : Tree) : Prop where
  last : ∃ name, route.names.getLast? = some name ∧ isDotName name = false
  leads : ∃ links, t'.LeadsFrom (origin cwd route) route.names links dir
  new : t.lookup? dir = none
  grown : t.GrownAlong dir t'

theorem madeFor_put {s : Slot} (hs : t'.slot cwd route = .ok (some s))
    (hlen : s.name.utf8ByteSize ≤ maxNameBytes) (hn : t'.lookup? s.location = none)
    (hg : t.GrownAlong s.dir t') :
    t.MadeFor cwd route s.location (t'.put s.location (.directory directoryMode)) := by
  obtain ⟨names, links, hnames, hdot, _, hl⟩ := slot_eq_some_iff.mp hs
  have hgrown := grown_put s.location_ne_nil hn
  refine ⟨⟨s.name, by simp [hnames], hdot⟩, ⟨links, ?_⟩, hg.lookup?_eq_none hn, hg.put hn⟩
  rw [hnames]
  exact (hl.mono hgrown.within).down hdot hlen (lookup?_put_self t' s.location_ne_nil _)

theorem MadeFor.slot_dir {s : Slot} (h : t.MadeFor cwd up dir t') (hstart : up.start = route.start)
    (hs : t'.slot cwd route = .ok (some s))
    (hup : ∀ names, route.names = names ++ [s.name] → isDotName s.name = false →
      ∃ dots, Route.Dots dots ∧ names = up.names ++ dots) : s.dir = dir := by
  obtain ⟨names, links, hnames, hdot, _, hl⟩ := slot_eq_some_iff.mp hs
  obtain ⟨dots, hdots, rfl⟩ := hup names hnames hdot
  obtain ⟨links', hl'⟩ := h.leads
  rw [origin_eq hstart] at hl'
  exact hl.unique (hl'.append (leads_dots hdots links' dir))

theorem MadeFor.lookup?_below (ht : t.Proper) (h : t.MadeFor cwd route dir t') (name : String) :
    t'.lookup? (dir ++ [name]) = none := by
  rcases h.grown (dir ++ [name]) with he | ⟨_, _, hp⟩
  · have hd : t.isDirectoryAt dir = false := by rw [isDirectoryAt, h.new]
    rw [he, ht.lookup?_below hd]
  · exact absurd hp (Location.not_below_prefix dir name)

theorem walk_nothing (hdot : isDotName name = false) (hn : t.lookup? (dir ++ [name]) = none) :
    (t.walk true links dir (name :: rest) >>= t.entryAt).toOption = none := by
  by_cases hlen : maxNameBytes < name.utf8ByteSize
  · rw [walk_long hdot hlen]
    rfl
  · rw [walk_name hdot (Nat.not_lt.mp hlen), hn]
    by_cases hrest : rest = []
    · rw [if_pos hrest]
      rfl
    · rw [if_neg hrest]
      rfl

theorem MadeFor.not_leadsToDirectory {behind : List String} (ht : t.Proper)
    (h : t.MadeFor cwd up dir t') (hup : Route.IsParent up route name behind) (hname : name ≠ "..") :
    t'.leadsToDirectory cwd route = false := by
  obtain ⟨dots, hdots, hnames⟩ := hup.names
  obtain ⟨links, hl⟩ := h.leads
  rw [origin_eq hup.start] at hl
  have hdot : isDotName name = false := by
    have hproper := hup.proper
    simp only [Route.isIdle, Bool.or_eq_false_iff, beq_eq_false_iff_ne] at hproper
    simp [isDotName, hproper.2, hname]
  obtain ⟨more, hwalk⟩ : ∃ more, route.walk = up.names ++ dots ++ name :: more := by
    rw [Route.walk, hnames]
    split
    · exact ⟨behind ++ ["."], by simp⟩
    · exact ⟨behind, rfl⟩
  have hnone : (t'.target cwd true route >>= t'.entryAt).toOption = none := by
    rw [target, hwalk, (hl.append (leads_dots hdots links dir)).walkFrom_append]
    exact walk_nothing hdot (h.lookup?_below ht name)
  rw [leadsToDirectory]
  split
  · next he =>
    rw [he] at hnone
    cases hnone
  · rfl

theorem eq_of_tolerated {e : FileError} {b : Bool}
    (h : ((t, if b = true then .ok () else .error e) : Changed FileError) = (t', .ok ())) :
    t' = t ∧ b = true := by
  cases b with
  | false => cases h
  | true =>
      cases h
      exact ⟨rfl, rfl⟩

theorem makeAncestors_cases {fuel : Nat}
    (h : t.makeAncestors cwd (route.ancestorsWithin (fuel + 1)) = (t', .ok ())) :
    t' = t ∨ t.makeDirectory cwd route = .ok t' ∨
      ∃ up t₁, route.parent? = some up ∧ t.makeDirectory cwd route = .error .notFound ∧
        t.makeAncestors cwd (up.ancestorsWithin fuel) = (t₁, .ok ()) ∧
        (t₁.makeDirectory cwd route = .ok t' ∨ t' = t₁ ∧ t₁.leadsToDirectory cwd route = true) := by
  rw [Route.ancestorsWithin, makeAncestors] at h
  split at h
  · cases h
    exact .inl rfl
  split at h
  · next hm =>
    cases h
    exact .inr (.inl hm)
  · next hm =>
    cases hp : route.parent? with
    | none =>
        simp only [hp, makeAncestors, hm] at h
        exact .inl (eq_of_tolerated h).1
    | some up =>
        rcases hrest : t.makeAncestors cwd (up.ancestorsWithin fuel) with ⟨t₁, _ | _⟩
        · simp [hp, hrest] at h
        simp only [hp, hrest] at h
        refine .inr (.inr ⟨up, t₁, rfl, hm, hrest, ?_⟩)
        split at h
        · next hm' =>
          cases h
          exact .inl hm'
        · exact .inr (eq_of_tolerated h)
  · exact .inl (eq_of_tolerated h).1

theorem makeAncestors_ok (ht : t.Proper) {fuel : Nat} (hup : ".." ∉ route.names)
    (h : t.makeAncestors cwd (route.ancestorsWithin fuel) = (t', .ok ())) :
    t' = t ∨ ∃ dir, t.MadeFor cwd route dir t' := by
  induction fuel generalizing route t' with
  | zero =>
      cases h
      exact .inl rfl
  | succ fuel ih =>
      rcases makeAncestors_cases h with rfl | hm | ⟨up, t₁, hp, hm, hrest, hthen⟩
      · exact .inl rfl
      · obtain ⟨s, hs, hlen, hn, rfl⟩ := makeDirectory_ok hm
        exact .inr ⟨_, madeFor_put hs hlen hn (.refl t s.dir)⟩
      have hnothing (he : t₁ = t) : t' = t := by
        subst he
        rcases hthen with hm' | ⟨rfl, _⟩
        · rw [hm] at hm'
          cases hm'
        · rfl
      rcases Route.parent?_cases route with ⟨_, honly⟩ | ⟨up', name, behind, hup', hparent⟩
      · -- A path of dots alone is there already.
        obtain rfl := honly up hp
        rcases ih (by simp [Route.names]) hrest with he | ⟨dir, hmade⟩
        · exact .inl (hnothing he)
        · obtain ⟨name, hlast, _⟩ := hmade.last
          simp [Route.names] at hlast
      · obtain rfl : up = up' := Option.some.inj (hp.symm.trans hup')
        obtain ⟨dots, _, hnames⟩ := hparent.names
        rw [hnames] at hup
        rcases ih (fun hn => hup (by simp [hn])) hrest with he | ⟨dir, hmade⟩
        · exact .inl (hnothing he)
        rcases hthen with hm' | ⟨_, hleads⟩
        · obtain ⟨s, hs, hlen, hn, rfl⟩ := makeDirectory_ok hm'
          refine .inr ⟨_, madeFor_put hs hlen hn ?_⟩
          have hdir : s.dir = dir := by
            refine hmade.slot_dir hparent.start hs fun names hnames hdot => ?_
            obtain ⟨up', hup', hparent⟩ := Route.parent?_of_names hnames hdot
            obtain rfl : up = up' := Option.some.inj (hp.symm.trans hup')
            exact hparent.init hnames
          rw [hdir]
          exact hmade.grown
        · rw [hmade.not_leadsToDirectory ht hparent fun hn => hup (by simp [hn])] at hleads
          cases hleads

theorem status_eq_none {path : String} (hw : Within t t')
    (hl : t'.LeadsFrom (origin cwd (.ofString path)) names links dir)
    (hwalk : (Route.ofString path).walk = names ++ [name]) (hdot : isDotName name = false)
    (hn : t.lookup? (dir ++ [name]) = none) : (t.status cwd path).toOption = none := by
  cases hs : t.status cwd path with
  | error e => rfl
  | ok e =>
      exfalso
      obtain ⟨names', hc, hl'⟩ := hl
      simp only [status, resolve, bind, Except.bind] at hs
      split at hs
      · cases hs
      next target htarget =>
      split at htarget
      · cases htarget
      rw [Tree.target, hwalk, walkFrom, hc] at htarget
      obtain ⟨links', dir', hlt, hlast⟩ := leads_of_walk_append (by simp) htarget
      obtain rfl : dir' = dir := (hlt.mono hw).unique hl'
      have hnone : (t.walk true links' dir' [name] >>= t.entryAt).toOption = none :=
        walk_nothing hdot hn
      rw [hlast] at hnone
      simp only [bind, Except.bind, hs] at hnone
      cases hnone

theorem modeFor_eq_ownerOnly {path : String} (h : (t.status cwd path).toOption = none) :
    t.modeFor cwd path = ownerOnlyMode := by
  rw [modeFor]
  cases hs : t.status cwd path with
  | ok e =>
      rw [hs] at h
      cases h
  | error e => rfl

theorem makeDirectories_ok (ht : t.Proper) {path : String} (hup : ".." ∉ (Route.ofString path).names)
    (h : t.makeDirectories cwd path = (t', .ok ())) :
    t' = t ∨ ∃ dir, t.MadeFor cwd (.ofString path) dir t' := by
  rw [makeDirectories] at h
  split at h
  · cases h
    exact .inl rfl
  split at h
  · cases h
  exact makeAncestors_ok ht hup h

theorem makeDirectories_parent (ht : t.Proper) {path : String} {s : Slot}
    (hup : ".." ∉ (Route.ofString path).names)
    (h : t.makeDirectories cwd (parentOf path) = (t', .ok ()))
    (hs : t'.slot cwd (.ofString path) = .ok (some s)) (hslash : s.slash = false) :
    t.GrownAlong s.dir t' ∧ t'.modeFor cwd path = t.modeFor cwd path := by
  obtain ⟨names, links, hnames, hdot, hend, hl⟩ := slot_eq_some_iff.mp hs
  rcases Route.parentOf_cases hnames hdot with hp | ⟨dots, hdots, hall, hstart⟩
  · rcases makeDirectories_ok ht (by rw [hp]; decide) h with rfl | ⟨dir, hmade⟩
    · exact ⟨.refl t' s.dir, rfl⟩
    · obtain ⟨name, hlast, hname⟩ := hmade.last
      rw [hp] at hlast
      obtain rfl : "." = name := Option.some.inj hlast
      cases hname
  · rw [hnames, hall] at hup
    rcases makeDirectories_ok ht (fun hmem => hup (by simp [hmem])) h with rfl | ⟨dir, hmade⟩
    · exact ⟨.refl t' s.dir, rfl⟩
    have hdir : s.dir = dir :=
      hmade.slot_dir hstart hs fun names' hnames' _ =>
        ⟨dots, hdots, (List.append_inj' (hnames'.symm.trans hnames) rfl).1.trans hall⟩
    rw [hdir] at hl ⊢
    have hbelow := hmade.lookup?_below ht s.name
    have hwalk : (Route.ofString path).walk = names ++ [s.name] := by
      rw [Route.walk, if_neg (by simp [← hend, hslash]), hnames]
    have hgrown := grown_makeDirectories t cwd (parentOf path)
    rw [h] at hgrown
    have hnow := status_eq_none (fun _ _ he _ => he) hl hwalk hdot hbelow
    have hbefore := status_eq_none hgrown.within hl hwalk hdot (hmade.grown.lookup?_eq_none hbelow)
    exact ⟨hmade.grown, (modeFor_eq_ownerOnly hnow).trans (modeFor_eq_ownerOnly hbefore).symm⟩

end

end PluginConsent.Tree
