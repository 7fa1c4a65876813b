import PluginConsent.Proofs.Files.Upkeep
import PluginConsent.Proofs.Settings.Store
import PluginConsent.Proofs.Settings.Text

namespace PluginConsent

namespace Document

variable {d : Document} {p : Policy} {s : Strategy}

/-- The members that are no buckets, in their order. No update touches them. -/
def foreign (d : Document) : Document := d.filter fun field => (Action.ofName? field.1).isNone

theorem foreign_put {a : Action} {v : Json} : foreign (Entries.put a.name v d) = foreign d := by
  induction d with
  | nil => simp [foreign, Entries.put, Action.ofName?_name]
  | cons field d ih =>
      obtain ⟨k, w⟩ := field
      rw [Entries.put]
      split
      · next hk => simp [foreign, hk, Action.ofName?_name]
      · simp only [foreign, List.filter_cons] at ih ⊢
        rw [ih]

theorem foreign_apply : foreign (d.apply p s) = foreign d := by
  rw [apply_eq_foldl]
  generalize Action.all = as
  induction as generalizing d with
  | nil => rfl
  | cons a as ih =>
      rw [List.foldl_cons, ih, applyAction]
      split
      · exact foreign_put
      · rfl

theorem mem_rules_of_apply {a : Action} {rule : String} (h : rule ∈ rules (d.apply p s) a) :
    rule ∈ rules d a ∨ rule ∈ p.rules a := by
  rw [← rules_policy] at h ⊢
  cases s with
  | merge => exact mem_rules_apply_merge.mp h
  | replace => exact (mem_rules_apply_replace.mp h).symm.imp And.right id

theorem mem_rules_apply {a : Action} {rule : String} (h : rule ∈ p.rules a) :
    rule ∈ rules (d.apply p s) a := by
  rw [← rules_policy]
  cases s with
  | merge => exact mem_rules_apply_merge.mpr (.inr h)
  | replace => exact mem_rules_apply_replace.mpr (.inl h)

/-- A document whose text readers take and give the document back from. -/
structure Legible (d : Document) : Prop where
  short : (text d).utf8ByteSize ≤ maxBytes
  back : Json.ofString? (Json.object d).pretty = some (.object d)

end Document

/-- A path leads to a file that may be read, and the document in it is this one. -/
structure Held (t : Tree) (who : Account) (cwd : WorkingDirectory) (path : String) (d : Document) :
    Prop where
  file : ∃ content mode, t.status cwd path = .ok (.file content mode) ∧ who.mayRead mode = true
  read : Document.read? t who cwd path = some d

section

variable {t t' : Tree} {who : Account} {cwd : WorkingDirectory} {path : String} {d d' : Document}
  {u : Update}

theorem Held.unique (h : Held t who cwd path d) (h' : Held t who cwd path d') : d = d' :=
  Option.some.inj (h.read.symm.trans h'.read)

theorem Held.grown (h : Held t who cwd path d) (hg : t.Grown t') : Held t' who cwd path d := by
  obtain ⟨⟨content, mode, hfile, hmay⟩, hread⟩ := h
  have hfile' := hg.status_file hfile
  exact ⟨⟨content, mode, hfile', hmay⟩, (Document.read?_congr (hfile'.trans hfile.symm)).trans hread⟩

theorem Held.standsApart (h : Held t who cwd path d) (ht : t.Proper)
    (hcwd : t.isDirectoryAt cwd.nearest = true) : t.StandsApart cwd path := by
  obtain ⟨content, mode, hfile, _⟩ := h.file
  exact ht.standsApart hcwd hfile

theorem Held.store_error (h : Held t who cwd u.path d) {e : WriteError}
    (hr : (u.store t cwd).2 = .error e) : Held (u.store t cwd).1 who cwd u.path d :=
  h.grown (Update.store_error (Prod.ext rfl hr)).2

theorem Held.store_ok (h : Held t who cwd u.path d) (ht : t.Proper)
    (hcwd : t.isDirectoryAt cwd.nearest = true) (hidle : u.isIdle = false) (hu : u.after.Legible)
    {written : Bool} (hr : (u.store t cwd).2 = .ok written) :
    Held (u.store t cwd).1 who cwd u.path u.after := by
  cases written with
  | false =>
      rw [Update.store_ok_false_iff.mp hr] at hidle
      cases hidle
  | true =>
      obtain ⟨_, _, slot, hreplaced⟩ := Update.store_ok_true hr
      have hgrown := Tree.grown_makeDirectories t cwd (Tree.parentOf u.path)
      have hmade := h.grown hgrown
      have hapart := hmade.standsApart (ht.makeDirectories hcwd _) (hgrown.isDirectoryAt hcwd)
      obtain ⟨content, mode, hfile, hmay⟩ := hmade.file
      have hmode : (t.makeDirectories cwd (Tree.parentOf u.path)).1.modeFor cwd u.path = mode :=
        Tree.modeFor_of_status hfile
      have hafter := hreplaced.status_after hapart
      rw [hmode] at hafter
      refine ⟨⟨_, mode, hafter, hmay⟩, ?_⟩
      rw [Document.read?_of_status hafter, if_pos hmay, Document.ofContent_text hu.back, if_pos hu.short]

theorem Tree.Proper.store (ht : t.Proper) (hcwd : t.isDirectoryAt cwd.nearest = true) :
    (u.store t cwd).1.Proper := by
  have hreplaced := ht.replaceFile hcwd u.path (Document.text u.after).toUTF8
  rw [Update.store, Document.write]
  split
  · exact ht
  · generalize t.replaceFile cwd u.path _ = out at hreplaced ⊢
    obtain ⟨t', _ | _⟩ := out <;> exact hreplaced

theorem Update.isDirectoryAt_store {loc : Location} (hd : t.isDirectoryAt loc = true) :
    (u.store t cwd).1.isDirectoryAt loc = true := by
  have hreplaced : (t.replaceFile cwd u.path (Document.text u.after).toUTF8).1.isDirectoryAt loc = true :=
    Tree.isDirectoryAt_replaceFile hd u.path _
  rw [Update.store, Document.write]
  split
  · exact hd
  · generalize t.replaceFile cwd u.path _ = out at hreplaced ⊢
    obtain ⟨t', _ | _⟩ := out <;> exact hreplaced

end

end PluginConsent
