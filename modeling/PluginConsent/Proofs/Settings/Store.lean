import PluginConsent.Proofs.Json.Same
import PluginConsent.Proofs.Settings.Apply
import PluginConsent.Proofs.Settings.Failure

namespace PluginConsent

namespace Json

theorem find?_of_sameFields {fields others : Object} {k : String} {v : Json}
    (h : sameFields fields others = true) (hv : Entries.find? k fields = some v) :
    ∃ w, Entries.find? k others = some w ∧ same v w = true := by
  induction fields with
  | nil => cases hv
  | cons f fields ih =>
      obtain ⟨k', v'⟩ := f
      rw [sameFields] at h
      split at h
      · next w hw =>
        obtain ⟨hsame, hrest⟩ := Bool.and_eq_true_iff.mp h
        rw [Entries.find?] at hv
        split at hv
        · next hk => subst hk; cases hv; exact ⟨w, hw, hsame⟩
        · exact ih hrest hv
      · cases h

theorem eq_of_sameItems {ss : List String} {items : List Json}
    (h : sameItems (ss.map .string) items = true) : items = ss.map .string := by
  induction ss generalizing items with
  | nil => cases items with
      | nil => rfl
      | cons => cases h
  | cons s ss ih =>
      cases items with
      | nil => cases h
      | cons item items =>
          rw [List.map_cons, sameItems] at h
          obtain ⟨hs, hrest⟩ := Bool.and_eq_true_iff.mp h
          cases item with
          | string s' =>
              rw [same, beq_iff_eq] at hs
              rw [ih hrest, hs, List.map_cons]
          | _ => simp [same] at hs

end Json

namespace Document

variable {d : Document} {p : Policy} {s : Strategy}

def Agree (d d' : Document) : Prop := ∀ k, Entries.find? k d = Entries.find? k d'

theorem Agree.symm {d' : Document} (h : d.Agree d') : d'.Agree d := fun k => (h k).symm

theorem Agree.trans {d' d'' : Document} (h : d.Agree d') (h' : d'.Agree d'') : d.Agree d'' :=
  fun k => (h k).trans (h' k)

theorem agree_of_actions {d' : Document}
    (h : ∀ a : Action, Entries.find? a.name d = Entries.find? a.name d')
    (hother : ∀ k, (∀ a : Action, k ≠ a.name) → Entries.find? k d = Entries.find? k d') :
    d.Agree d' := by
  intro k
  by_cases hk : ∃ a : Action, k = a.name
  · obtain ⟨a, rfl⟩ := hk
    exact h a
  · exact hother k fun a ha => hk ⟨a, ha⟩

theorem Agree.policy {d' : Document} (h : d.Agree d') : d.policy = d'.policy := by
  refine Policy.eq_of_bucket? fun a => ?_
  rw [Document.policy, Document.policy, Policy.bucket?_ofBuckets, Policy.bucket?_ofBuckets,
    bucket?_congr (h a.name)]

theorem find?_apply_of_ne {k : String} (h : ∀ a : Action, k ≠ a.name) :
    Entries.find? k (d.apply p s) = Entries.find? k d := by
  rw [apply_eq_foldl]
  generalize Action.all = as
  induction as generalizing d with
  | nil => rfl
  | cons a as ih => rw [List.foldl_cons, ih, find?_applyAction_of_ne (h a)]

theorem unique_applyAction {a : Action} (h : (Json.object d).Unique) :
    (Json.object (applyAction p s d a)).Unique := by
  unfold applyAction
  split
  · exact Json.Builder.unique_put h (Json.unique_ofStrings _)
  · exact h

theorem unique_apply (h : (Json.object d).Unique) : (Json.object (d.apply p s)).Unique := by
  rw [apply_eq_foldl]
  generalize Action.all = as
  induction as generalizing d with
  | nil => exact h
  | cons a as ih => exact ih (unique_applyAction h)

/-- An update carries along what it does not write, so equality up to the order of keys can only fail to
be agreement in a bucket; and what is written there is a list of strings. -/
theorem agree_of_same (h : (d.apply p s).same d = true) : (d.apply p s).Agree d := by
  rw [same, Json.same, Bool.and_eq_true_iff] at h
  refine agree_of_actions (fun a => ?_) fun k => find?_apply_of_ne
  cases hw : written? d p s a with
  | none => rw [find?_apply, hw, Option.map_none, Option.none_or]
  | some rs =>
      have hfind : Entries.find? a.name (d.apply p s) = some (Json.ofStrings rs) := by
        rw [find?_apply, hw]
        rfl
      obtain ⟨w, hd, hsame⟩ := Json.find?_of_sameFields h.2 hfind
      rw [hfind, hd]
      cases w with
      | array items =>
          rw [Json.ofStrings, Json.same] at hsame
          rw [Json.eq_of_sameItems hsame]
          rfl
      | _ => simp [Json.ofStrings, Json.same] at hsame

theorem same_apply_iff (h : (Json.object d).Unique) :
    (d.apply p s).same d = true ↔ (d.apply p s).Agree d := by
  refine ⟨agree_of_same, fun ha => ?_⟩
  rw [Json.unique_object_iff] at h
  exact Json.same_of_find? (unique_apply (Json.unique_object_iff.mpr h)) h.1 ha

theorem policy_apply_of_same (h : (d.apply p s).same d = true) :
    (d.apply p s).policy = d.policy := (agree_of_same h).policy

theorem unique_ofText (text : String) : (Json.object (ofText text)).Unique := by
  rw [ofText]
  split
  · exact Json.Builder.unique_nil
  · cases ho : (Json.ofString? text).bind Json.object? with
    | none => exact Json.Builder.unique_nil
    | some fields =>
        obtain ⟨v, hv, hfields⟩ := Option.bind_eq_some_iff.mp ho
        cases v with
        | object fields' =>
            cases hfields
            exact Json.unique_of_ofString? hv
        | _ => cases hfields

theorem unique_ofContent (content : ByteArray) : (Json.object (ofContent content)).Unique := by
  rw [ofContent]
  split
  · exact unique_ofText _
  · exact Json.Builder.unique_nil

section

variable {t t' : Tree} {who : Account} {cwd : WorkingDirectory} {path : String} {content : ByteArray}
  {mode : Nat}

theorem read?_of_status (h : t.status cwd path = .ok (.file content mode)) :
    read? t who cwd path = some (if who.mayRead mode then ofContent content else []) := by
  rw [read?, h, Tree.readFile_of_status h]
  cases who.mayRead mode <;> rfl

theorem read?_congr (h : t'.status cwd path = t.status cwd path) :
    read? t' who cwd path = read? t who cwd path := by
  rw [read?, read?, Tree.readFile, Tree.readFile, h]

theorem read?_cases (t : Tree) (who : Account) (cwd : WorkingDirectory) (path : String) :
    (read? t who cwd path).getD [] = [] ∨ ∃ content mode, t.status cwd path = .ok (.file content mode) ∧
      who.mayRead mode = true ∧ read? t who cwd path = some (ofContent content) := by
  cases hs : t.status cwd path with
  | error e =>
      rw [read?, hs]
      cases e <;> exact .inl rfl
  | ok e =>
      cases e with
      | file content mode =>
          rw [read?_of_status hs]
          cases hmay : who.mayRead mode with
          | false => exact .inl rfl
          | true => exact .inr ⟨content, mode, rfl, hmay, rfl⟩
      | directory | link | pipe =>
          rw [read?, hs]
          exact .inl rfl

theorem getD_read?_of_unread (h : (t.readFile who cwd path).toOption.isNone = true) :
    (read? t who cwd path).getD [] = [] := by
  rcases read?_cases t who cwd path with hnone | ⟨content, mode, hs, hmay, _⟩
  · exact hnone
  · rw [Tree.readFile_of_status hs, hmay] at h
    cases h

theorem unique_read? (h : read? t who cwd path = some d) : (Json.object d).Unique := by
  have hd : (read? t who cwd path).getD [] = d := by rw [h, Option.getD_some]
  rcases read?_cases t who cwd path with hempty | ⟨content, _, _, _, hread⟩
  · rw [← hd, hempty]
    exact Json.Builder.unique_nil
  · rw [← hd, hread]
    exact unique_ofContent content

end

end Document

namespace Update

variable {t t' : Tree} {cwd : WorkingDirectory} {u : Update}

theorem store_of_isIdle (h : u.isIdle = true) : u.store t cwd = (t, .ok false) := by
  rw [store, if_pos h]

theorem isIdle_iff : u.isIdle = true ↔ ∃ d, u.before = some d ∧ u.after.same d = true := by
  rw [isIdle]
  cases u.before <;> simp

theorem store_ok_false_iff : (u.store t cwd).2 = .ok false ↔ u.isIdle = true := by
  refine ⟨fun h => ?_, fun h => by rw [store_of_isIdle h]⟩
  cases hidle : u.isIdle with
  | true => rfl
  | false =>
      rw [store, hidle] at h
      split at h
      · next he => cases he
      · split at h <;> cases h

theorem store_ok_false (h : (u.store t cwd).2 = .ok false) :
    (u.store t cwd).1 = t ∧ ∃ d, u.before = some d ∧ u.after.same d = true := by
  have hidle := store_ok_false_iff.mp h
  exact ⟨by rw [store_of_isIdle hidle], isIdle_iff.mp hidle⟩

theorem store_ok_true (h : (u.store t cwd).2 = .ok true) :
    u.isIdle = false ∧ (t.makeDirectories cwd (Tree.parentOf u.path)).2 = .ok () ∧
      ∃ slot, Tree.Replaced (t.makeDirectories cwd (Tree.parentOf u.path)).1 cwd u.path
        (Document.text u.after).toUTF8 slot (u.store t cwd).1 := by
  cases hidle : u.isIdle with
  | true =>
      rw [store_of_isIdle hidle] at h
      cases h
  | false =>
      rcases hr : t.replaceFile cwd u.path (Document.text u.after).toUTF8 with ⟨t', result⟩
      rw [store, hidle, Document.write, hr] at h ⊢
      cases result with
      | error e => cases h
      | ok => exact ⟨rfl, Tree.replaceFile_ok hr⟩

theorem store_of_replaceFile (hidle : u.isIdle = false)
    (h : (t.replaceFile cwd u.path (Document.text u.after).toUTF8).2 = .ok ()) :
    (u.store t cwd).2 = .ok true := by
  rw [store, hidle, Document.write]
  generalize t.replaceFile cwd u.path _ = out at h
  obtain ⟨t', result⟩ := out
  cases h
  rfl

end Update

namespace Places

variable (p : Places) (env : Surroundings) (t : Tree) (scope : Scope) (rules : Policy) (s : Strategy)

theorem write_eq_store {path : String} (hpath : p.path env t scope = .ok path)
    (hs : rules.Storable) : p.write env t scope rules s =
      (Update.load t env.account env.workingDirectory path rules s).store t env.workingDirectory := by
  rw [write, Policy.firstFault?_eq_none_iff.mpr hs, hpath]

theorem write_ok {written : Bool} (h : (p.write env t scope rules s).2 = .ok written) :
    rules.Storable ∧ ∃ path, p.path env t scope = .ok path ∧ p.write env t scope rules s =
      (Update.load t env.account env.workingDirectory path rules s).store t env.workingDirectory := by
  rcases write_cases p env t scope rules s with ⟨_, _, _, _, hw⟩ | ⟨_, _, _, hw⟩ | hstored
  · rw [hw] at h
    cases h
  · rw [hw] at h
    cases h
  · exact hstored

theorem storable_of_write_ok {written : Bool} (h : (p.write env t scope rules s).2 = .ok written) :
    rules.Storable := (write_ok p env t scope rules s h).1

end Places

end PluginConsent
