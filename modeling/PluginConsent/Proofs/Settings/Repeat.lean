import PluginConsent.Proofs.Settings.Frame
import PluginConsent.Proofs.Settings.Held

namespace PluginConsent

namespace Document

variable {d d' fields : Document} {p : Policy} {s : Strategy} {a : Action}

theorem written?_apply (d : Document) (p : Policy) (s : Strategy) (a : Action) :
    written? (d.apply p s) p s a = written? d p s a := by
  cases s with
  | replace => rw [written?_replace, written?_replace]
  | merge =>
      rw [written?_merge, written?_merge]
      split
      · rfl
      · refine congrArg some (Ascending.ofList_congr fun rule => ?_)
        simp only [List.mem_append, ← rules_policy, mem_rules_apply_merge, or_assoc, or_self]

theorem agree_apply (h : ∀ a : Action, Entries.find? a.name fields = Entries.find? a.name (d.apply p s)) :
    (fields.apply p s).Agree fields := by
  refine agree_of_actions (fun a => ?_) fun k => find?_apply_of_ne
  have hwritten : written? fields p s a = written? d p s a :=
    (written?_congr (bucket?_congr (h a))).trans (written?_apply d p s a)
  rw [find?_apply, hwritten, h a, find?_apply]
  cases written? d p s a <;> rfl

/-- A document whose text readers take, and get its buckets from. -/
structure Retained (d : Document) : Prop where
  short : (text d).utf8ByteSize ≤ maxBytes
  buckets : ∃ fields, Json.ofString? (Json.object d).pretty = some (.object fields) ∧
    ∀ a : Action, Entries.find? a.name fields = Entries.find? a.name d

theorem Legible.retained (h : d.Legible) : d.Retained := ⟨h.short, d, h.back, fun _ => rfl⟩

theorem Retained.ofContent (h : d.Retained) :
    ∀ a : Action, Entries.find? a.name (ofContent (text d).toUTF8) = Entries.find? a.name d := by
  obtain ⟨hshort, fields, hback, hbuckets⟩ := h
  rw [ofContent_text hback, if_pos hshort]
  exact hbuckets

end Document

namespace Places

variable {p : Places} {env : Surroundings} {t : Tree} {scope : Scope} {rules : Policy} {s : Strategy}
  {d : Document} {path : String} {mode : Nat}

theorem write_found (hs : rules.Storable) (hd : (d.apply rules s).Retained)
    (hmay : env.account.mayRead mode = true)
    (hfinds : p.Finds env t scope (.file (Document.text (d.apply rules s)).toUTF8 mode)) :
    p.write env t scope rules s = (t, .ok false) := by
  obtain ⟨path, hpath, hfile⟩ := hfinds
  have hread : Document.read? t env.account env.workingDirectory path = some _ :=
    Document.read?_of_status hfile
  rw [if_pos hmay] at hread
  rw [write_eq_store p env t scope rules s hpath hs]
  refine Update.store_of_isIdle ((isIdle_load_iff env t rules s path).mpr ⟨_, hread, ?_⟩)
  rw [hread, Option.getD_some]
  exact Document.agree_apply hd.ofContent

theorem write_unread (hpath : p.path env t scope = .ok path)
    (h : (t.readFile env.account env.workingDirectory path).toOption.isNone = true)
    (hne : ¬ Document.Agree (Document.apply [] rules s) []) :
    (p.write env t scope rules s).2 ≠ .ok false := by
  intro hw
  rw [write_eq_store p env t scope rules s hpath (storable_of_write_ok p env t scope rules s hw)] at hw
  obtain ⟨d, hd, hagree⟩ := (isIdle_load_iff env t rules s path).mp (Update.store_ok_false_iff.mp hw)
  have hempty := Document.getD_read?_of_unread h
  rw [hempty] at hagree
  rw [hd, Option.getD_some] at hempty
  exact hne (hempty ▸ hagree)

theorem write_unchanged (h : (p.write env t scope rules s).2 = .ok false) :
    p.write env t scope rules s = (t, .ok false) := by
  obtain ⟨_, path, _, hw⟩ := write_ok p env t scope rules s h
  rw [hw] at h ⊢
  exact Prod.ext (Update.store_ok_false h).1 h

end Places

end PluginConsent
