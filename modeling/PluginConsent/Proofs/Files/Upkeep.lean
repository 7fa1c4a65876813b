import PluginConsent.Proofs.Files.Lasting
import PluginConsent.Proofs.Files.Parent

namespace PluginConsent

namespace Route

theorem notMem_splitOnto {c : Char} {cs part : List Char} {done : List String} (hcs : c ∉ cs)
    (hpart : c ∉ part) (hdone : ∀ p ∈ done, c ∉ p.toList) :
    ∀ p ∈ splitOnto done part cs, c ∉ p.toList := by
  have hnext : ∀ p ∈ String.ofList part.reverse :: done, c ∉ p.toList := by
    intro p hp
    rcases List.mem_cons.mp hp with rfl | hp
    · simpa using hpart
    · exact hdone p hp
  induction cs generalizing done part with
  | nil => exact hnext
  | cons c' cs ih =>
      rw [List.mem_cons, not_or] at hcs
      obtain ⟨hc, hcs⟩ := hcs
      rw [splitOnto]
      split
      · refine ih hcs (by simp) hnext fun p hp => ?_
        rcases List.mem_cons.mp hp with rfl | hp
        · simp
        · exact hnext p hp
      · have hmore : c ∉ c' :: part := by simp [hc, hpart]
        refine ih hcs hmore hdone fun p hp => ?_
        rcases List.mem_cons.mp hp with rfl | hp
        · simpa [and_comm] using hmore
        · exact hdone p hp

def Usable (r : Route) : Prop := ∀ p ∈ r.parts, '/' ∉ p.toList ∧ '\x00' ∉ p.toList

theorem usable_ofString {path : String} (h : Tree.checkPath path = .ok ()) : (ofString path).Usable := by
  have hnul : '\x00' ∉ path.toList := by
    intro hmem
    simp [Tree.checkPath, Tree.checkText, hmem, bind, Except.bind] at h
  refine fun p hp => ⟨(plain_ofString path).slashFree p hp, ?_⟩
  rw [ofString] at hp
  generalize path.toList = cs at hnul hp
  have hsplit {cs : List Char} (h : '\x00' ∉ cs) : ∀ p ∈ split cs, '\x00' ∉ p.toList :=
    notMem_splitOnto h (by simp) (by simp)
  unfold ofChars at hp
  split at hp
  · simp at hp
  · exact hsplit (fun h => hnul (by simp [h])) p hp
  · simp at hp
  · exact hsplit (fun h => hnul (by simp [h])) p hp
  · exact hsplit hnul p hp

theorem Usable.ancestorsWithin {r : Route} (h : r.Usable) (fuel : Nat) :
    ∀ up ∈ r.ancestorsWithin fuel, up.Usable := by
  induction fuel generalizing r with
  | zero => simp [Route.ancestorsWithin]
  | succ fuel ih =>
      intro up hup
      rw [Route.ancestorsWithin, List.mem_cons] at hup
      rcases hup with rfl | hup
      · exact h
      split at hup
      · next parent hparent =>
        refine ih ?_ up hup
        rcases parent?_cases r with ⟨_, honly⟩ | ⟨up', _, _, hup', hparts⟩
        · rw [honly parent hparent]
          simp [Usable]
        · obtain rfl := Option.some.inj (hparent.symm.trans hup')
          exact fun p hp => h p (hparts.parts.mem hp)
      · cases hup

theorem Usable.isPathName {r : Route} {name : String} (h : r.Usable) (hmem : name ∈ r.names)
    (hdot : Tree.isDotName name = false) (hlen : name.utf8ByteSize ≤ Tree.maxNameBytes) :
    Location.IsPathName name := by
  rw [names_eq, List.mem_append, List.mem_reverse, List.mem_filter] at hmem
  rcases hmem with hlead | ⟨hpart, hne⟩
  · rw [dots_lead r name hlead] at hdot
    cases hdot
  · obtain ⟨hslash, hnul⟩ := h name hpart
    exact ⟨⟨by simpa using hne, hslash, hdot, hlen⟩, hnul⟩

end Route

namespace Tree

variable {t t' : Tree} {cwd : WorkingDirectory} {route : Route} {s : Slot}

theorem isPathName_of_slot (hroute : route.Usable) (hs : t.slot cwd route = .ok (some s))
    (hlen : s.name.utf8ByteSize ≤ maxNameBytes) : Location.IsPathName s.name := by
  obtain ⟨names, _, hnames, hdot, _⟩ := slot_eq_some_iff.mp hs
  exact hroute.isPathName (by simp [hnames]) hdot hlen

theorem Proper.congr (ht : t.Proper) (h : ∀ loc, t'.lookup? loc = t.lookup? loc) : t'.Proper := by
  refine ⟨fun loc e he => ht.named loc e (h loc ▸ he), fun dir name e he => ?_⟩
  rw [isDirectoryAt, h, ← isDirectoryAt]
  exact ht.rooted dir name e (h _ ▸ he)

theorem Proper.makeDirectory (ht : t.Proper) (hcwd : t.isDirectoryAt cwd.nearest = true)
    (hroute : route.Usable) (h : t.makeDirectory cwd route = .ok t') : t'.Proper := by
  obtain ⟨s, hs, hlen, _, rfl⟩ := makeDirectory_ok h
  exact ht.put (ht.slot_dir hcwd hs) (isPathName_of_slot hroute hs hlen) fun _ => rfl

theorem Proper.makeAncestors (ht : t.Proper) (hcwd : t.isDirectoryAt cwd.nearest = true)
    {routes : List Route} (hroutes : ∀ route ∈ routes, route.Usable) :
    (t.makeAncestors cwd routes).1.Proper := by
  induction routes with
  | nil => exact ht
  | cons route up ih =>
      have hroute := hroutes route List.mem_cons_self
      have hup := ih fun r hr => hroutes r (List.mem_cons_of_mem _ hr)
      have hgrown := grown_makeAncestors t cwd up
      rw [Tree.makeAncestors]
      split
      · exact ht
      split
      · next h => exact ht.makeDirectory hcwd hroute h
      · split
        · next h =>
          rw [h] at hup
          exact hup
        · next h =>
          rw [h] at hup hgrown
          split
          · next h' => exact hup.makeDirectory (hgrown.isDirectoryAt hcwd) hroute h'
          · exact hup
      · exact ht

theorem Proper.makeDirectories (ht : t.Proper) (hcwd : t.isDirectoryAt cwd.nearest = true)
    (path : String) : (t.makeDirectories cwd path).1.Proper := by
  rw [Tree.makeDirectories]
  split
  · exact ht
  split
  · exact ht
  · next hcheck => exact ht.makeAncestors hcwd ((Route.usable_ofString hcheck).ancestorsWithin _)

theorem Replaced.proper {path : String} {content : ByteArray} (ht : t.Proper)
    (hcwd : t.isDirectoryAt cwd.nearest = true) (h : t.Replaced cwd path content s t') : t'.Proper := by
  have hname := isPathName_of_slot (Route.usable_ofString h.usable) h.slot h.short
  have hput := ht.put (e := .file content (t.modeFor cwd path)) (ht.slot_dir hcwd h.slot) hname fun hd => by
    rw [← Slot.location, h.free] at hd
    cases hd
  refine hput.congr fun loc => ?_
  rw [← Slot.location]
  by_cases hloc : loc = s.location
  · rw [hloc, h.self, lookup?_put_self t s.location_ne_nil]
  · rw [h.other loc hloc, lookup?_put_of_ne t hloc]

theorem Proper.replaceFile (ht : t.Proper) (hcwd : t.isDirectoryAt cwd.nearest = true) (path : String)
    (content : ByteArray) : (t.replaceFile cwd path content).1.Proper := by
  have hmade := ht.makeDirectories hcwd (parentOf path)
  have hgrown := grown_makeDirectories t cwd (parentOf path)
  rcases hr : t.replaceFile cwd path content with ⟨t', _ | _⟩
  · unfold Tree.replaceFile at hr
    split at hr
    · next he =>
      cases hr
      rwa [he] at hmade
    · next he =>
      rw [he] at hmade
      split at hr
      · cases hr
        exact hmade
      · exact hmade.congr (stage_error hr)
  · obtain ⟨_, s, hreplaced⟩ := replaceFile_ok hr
    exact hreplaced.proper hmade (hgrown.isDirectoryAt hcwd)

theorem isDirectoryAt_replaceFile {loc : Location} (hd : t.isDirectoryAt loc = true) (path : String)
    (content : ByteArray) : (t.replaceFile cwd path content).1.isDirectoryAt loc = true := by
  rcases hr : t.replaceFile cwd path content with ⟨t', _ | _⟩
  · exact (grown_replaceFile_error hr).isDirectoryAt hd
  · obtain ⟨_, s, hreplaced⟩ := replaceFile_ok hr
    exact hreplaced.isDirectoryAt ((grown_makeDirectories t cwd _).isDirectoryAt hd)

end Tree

end PluginConsent
