import PluginConsent.Json.Reader
import PluginConsent.Proofs.Index

namespace PluginConsent

namespace Json

mutual

def Unique : Json → Prop
  | .array items => UniqueItems items
  | .object fields => (Entries.keys fields).Nodup ∧ UniqueFields fields
  | _ => True

def UniqueItems : List Json → Prop
  | [] => True
  | v :: vs => Unique v ∧ UniqueItems vs

def UniqueFields : List (String × Json) → Prop
  | [] => True
  | (_, v) :: fs => Unique v ∧ UniqueFields fs

end

theorem uniqueItems_iff {vs : List Json} : UniqueItems vs ↔ ∀ v ∈ vs, Unique v := by
  induction vs with
  | nil => simp [UniqueItems]
  | cons v vs ih => simp [UniqueItems, ih]

theorem uniqueFields_iff {fs : List (String × Json)} : UniqueFields fs ↔ ∀ f ∈ fs, Unique f.2 := by
  induction fs with
  | nil => simp [UniqueFields]
  | cons f fs ih => simp [UniqueFields, ih]

theorem unique_object_iff {fields : Object} :
    (object fields).Unique ↔ (Entries.keys fields).Nodup ∧ ∀ f ∈ fields, Unique f.2 := by
  rw [Unique, uniqueFields_iff]

theorem unique_ofStrings (ss : List String) : (ofStrings ss).Unique := by
  rw [ofStrings, Unique, uniqueItems_iff]
  intro v hv
  obtain ⟨s, _, rfl⟩ := List.mem_map.mp hv
  trivial

mutual

theorem same_self : (v : Json) → v.Unique → same v v = true
  | .null, _ => by rw [same]
  | .boolean b, _ => by rw [same, beq_self_eq_true]
  | .number n, _ => by rw [same, beq_self_eq_true]
  | .string s, _ => by rw [same, beq_self_eq_true]
  | .array items, h => by
      rw [same]
      rw [Unique] at h
      exact sameItems_self items h
  | .object fields, h => by
      rw [Unique] at h
      rw [same, beq_self_eq_true, Bool.true_and]
      exact sameFields_of_find? fields fields h.2 fun f hf => Entries.find?_of_mem h.1 hf

theorem sameItems_self : (vs : List Json) → UniqueItems vs → sameItems vs vs = true
  | [], _ => by rw [sameItems]
  | v :: vs, h => by
      rw [UniqueItems] at h
      rw [sameItems, same_self v h.1, sameItems_self vs h.2]
      rfl

theorem sameFields_of_find? : (fs others : List (String × Json)) → UniqueFields fs →
    (∀ f ∈ fs, Entries.find? f.1 others = some f.2) → sameFields fs others = true
  | [], _, _, _ => by rw [sameFields]
  | (k, v) :: fs, others, h, hf => by
      rw [UniqueFields] at h
      have hk : Entries.find? k others = some v := hf (k, v) List.mem_cons_self
      rw [sameFields, hk]
      simp only [same_self v h.1, Bool.true_and]
      exact sameFields_of_find? fs others h.2 fun f hm => hf f (List.mem_cons_of_mem _ hm)

end

theorem same_of_find? {fields others : Object} (h : (object fields).Unique)
    (h' : (Entries.keys others).Nodup)
    (hf : ∀ k, Entries.find? k fields = Entries.find? k others) :
    same (.object fields) (.object others) = true := by
  rw [Unique] at h
  rw [same, Bool.and_eq_true, beq_iff_eq]
  refine ⟨Entries.length_eq_of_find? h.1 h' hf, sameFields_of_find? fields others h.2 fun f hm => ?_⟩
  rw [← hf, Entries.find?_of_mem h.1 hm]

theorem string?_of_same {v w : Json} (h : same v w = true) : string? v = string? w := by
  cases v <;> cases w <;> simp_all [same, string?]

theorem strings_of_sameItems {items others : List Json} (h : sameItems items others = true) :
    strings items = strings others := by
  induction items generalizing others with
  | nil => cases others with
      | nil => rfl
      | cons => cases h
  | cons v items ih =>
      cases others with
      | nil => cases h
      | cons w others =>
          rw [sameItems] at h
          obtain ⟨hv, hrest⟩ := Bool.and_eq_true_iff.mp h
          rw [strings, strings, List.filterMap_cons, List.filterMap_cons, string?_of_same hv,
            ← strings, ← strings, ih hrest]

namespace Frame

def Unique : Frame → Prop
  | .items done => ∀ v ∈ done, v.Unique
  | .fields done => (object done).Unique
  | .member done _ => (object done).Unique

end Frame

namespace Builder

def Unique : Builder → Prop
  | .value stack => ∀ f ∈ stack, f.Unique
  | .firstItem stack => ∀ f ∈ stack, f.Unique
  | .firstKey stack => ∀ f ∈ stack, f.Unique
  | .key done stack => (object done).Unique ∧ ∀ f ∈ stack, f.Unique
  | .colon stack => ∀ f ∈ stack, f.Unique
  | .separator stack => ∀ f ∈ stack, f.Unique
  | .finished v => v.Unique

variable {v : Json} {stack : List Frame} {t : Token} {b b' : Builder}

theorem unique_put {done : Object} {k : String} (hd : (object done).Unique) (hv : v.Unique) :
    (object (done.put k v)).Unique := by
  rw [unique_object_iff] at hd ⊢
  refine ⟨Entries.nodup_keys_put hd.1, fun f hf => ?_⟩
  rcases Entries.mem_put hf with rfl | hm
  · exact hv
  · exact hd.2 f hm

theorem complete?_unique (hv : v.Unique) (hs : ∀ f ∈ stack, f.Unique)
    (h : complete? v stack = some b) : b.Unique := by
  cases stack with
  | nil =>
      cases h
      exact hv
  | cons frame up =>
      obtain ⟨hframe, hup⟩ := List.forall_mem_cons.mp hs
      cases frame with
      | items done =>
          cases h
          exact List.forall_mem_cons.mpr ⟨List.forall_mem_cons.mpr ⟨hv, hframe⟩, hup⟩
      | fields done => cases h
      | member done k =>
          cases h
          exact List.forall_mem_cons.mpr ⟨unique_put hframe hv, hup⟩

theorem value?_unique (hs : ∀ f ∈ stack, f.Unique) (h : value? stack t = some b) : b.Unique := by
  cases t with
  | null => exact complete?_unique (v := .null) trivial hs h
  | boolean b => exact complete?_unique (v := .boolean b) trivial hs h
  | number n => exact complete?_unique (v := .number n) trivial hs h
  | string s => exact complete?_unique (v := .string s) trivial hs h
  | openBracket =>
      rw [value?] at h
      split at h <;> cases h
      exact hs
  | openBrace =>
      rw [value?] at h
      split at h <;> cases h
      exact hs
  | _ => cases h

theorem separator?_unique (hs : ∀ f ∈ stack, f.Unique) (h : separator? stack t = some b) :
    b.Unique := by
  unfold separator? at h
  split at h
  · cases h
    exact hs
  · obtain ⟨hframe, hup⟩ := List.forall_mem_cons.mp hs
    refine complete?_unique ?_ hup h
    rw [Json.Unique, uniqueItems_iff]
    exact fun v hv => hframe v (List.mem_reverse.mp hv)
  · cases h
    exact List.forall_mem_cons.mp hs
  · obtain ⟨hframe, hup⟩ := List.forall_mem_cons.mp hs
    exact complete?_unique hframe hup h
  · cases h

theorem unique_nil : (object []).Unique := ⟨List.nodup_nil, trivial⟩

theorem feed?_unique (hb : b.Unique) (h : feed? b t = some b') : b'.Unique := by
  unfold feed? at h
  split at h
  · exact value?_unique hb h
  · exact complete?_unique (v := .array []) trivial hb h
  · exact value?_unique (List.forall_mem_cons.mpr ⟨by simp [Frame.Unique], hb⟩) h
  · exact complete?_unique unique_nil hb h
  · cases h
    exact List.forall_mem_cons.mpr ⟨unique_nil, hb⟩
  · cases h
    exact List.forall_mem_cons.mpr hb
  · cases h
    exact hb
  · exact separator?_unique hb h
  · cases h

theorem foldlM_feed?_unique {ts : List Token} (hb : b.Unique) (h : ts.foldlM feed? b = some b') :
    b'.Unique := by
  induction ts generalizing b with
  | nil =>
      cases h
      exact hb
  | cons t ts ih =>
      rw [List.foldlM_cons] at h
      obtain ⟨next, hn, hr⟩ := Option.bind_eq_some_iff.mp h
      exact ih (feed?_unique hb hn) hr

end Builder

theorem unique_of_ofString? {s : String} {v : Json} (h : ofString? s = some v) : v.Unique := by
  rw [ofString?] at h
  obtain ⟨ts, _, hv⟩ := Option.bind_eq_some_iff.mp h
  obtain ⟨b, hb, hr⟩ := Option.bind_eq_some_iff.mp hv
  have hunique : b.Unique := Builder.foldlM_feed?_unique (b := .value []) (by simp [Builder.Unique]) hb
  cases b with
  | finished w =>
      cases hr
      exact hunique
  | _ => cases hr

end Json

end PluginConsent
