import PluginConsent.Category
import PluginConsent.Proofs.Json.Same
import PluginConsent.Proofs.Policy.Effective
import PluginConsent.Proofs.Rule.Reduce

namespace PluginConsent

namespace Preference

variable {p : Preference} {s : Action → Prop} {a b c : Action}

def Best : Preference → (Action → Prop) → Action → Prop
  | .mostPermissive => Action.Mildest
  | .mostRestrictive => Action.Strictest

theorem best_iff : p.Best s a ↔ s a ∧ ∀ b, s b → p.prefers b a = false := by
  cases p <;> simp [Best, Action.Mildest, Action.Strictest, prefers]

theorem Best.unique (h : p.Best s a) (h' : p.Best s b) : a = b := by
  cases p with
  | mostPermissive => exact Action.Mildest.unique h h'
  | mostRestrictive => exact Action.Strictest.unique h h'

theorem not_prefers_self (p : Preference) (a : Action) : p.prefers a a = false := by
  cases p <;> exact decide_eq_false (Nat.lt_irrefl _)

theorem not_prefers_of_prefers (h : p.prefers a b = true) : p.prefers b a = false := by
  cases p <;> exact decide_eq_false (Nat.lt_asymm (of_decide_eq_true h))

theorem not_prefers_trans (h : p.prefers a b = false) (h' : p.prefers b c = false) :
    p.prefers a c = false := by
  cases p with
  | mostPermissive =>
      exact decide_eq_false (Nat.not_lt.mpr (Nat.le_trans
        (Nat.not_lt.mp (of_decide_eq_false h')) (Nat.not_lt.mp (of_decide_eq_false h))))
  | mostRestrictive =>
      exact decide_eq_false (Nat.not_lt.mpr (Nat.le_trans
        (Nat.not_lt.mp (of_decide_eq_false h)) (Nat.not_lt.mp (of_decide_eq_false h'))))

theorem better_some (p : Preference) (a b : Action) :
    ∃ c, p.better (some a) b = some c ∧ p.Best (fun x => x = a ∨ x = b) c := by
  refine ⟨_, rfl, best_iff.mpr ?_⟩
  split
  · next h => exact ⟨.inr rfl, fun x hx => hx.elim (· ▸ not_prefers_of_prefers h)
      (· ▸ not_prefers_self p b)⟩
  · next h => exact ⟨.inl rfl, fun x hx => hx.elim (· ▸ not_prefers_self p a)
      (· ▸ Bool.eq_false_of_not_eq_true h)⟩

theorem foldl_better_some (p : Preference) (a : Action) (as : List Action) :
    ∃ c, as.foldl p.better (some a) = some c ∧ p.Best (fun x => x = a ∨ x ∈ as) c := by
  -- What is carried is the best of what has been seen, so the rest is started from any action.
  induction as generalizing a with
  | nil =>
      refine ⟨a, rfl, best_iff.mpr ⟨.inl rfl, fun x hx => ?_⟩⟩
      obtain rfl : x = a := by simpa using hx
      exact not_prefers_self p x
  | cons b as ih =>
      obtain ⟨k, hk, hstep⟩ := better_some p a b
      obtain ⟨c, hc, hrun⟩ := ih k
      obtain ⟨hkmem, hkall⟩ := best_iff.mp hstep
      obtain ⟨hcmem, hcall⟩ := best_iff.mp hrun
      refine ⟨c, by rw [List.foldl_cons, hk, hc], best_iff.mpr ⟨?_, fun x hx => ?_⟩⟩
      · rcases hcmem with rfl | hm
        · rcases hkmem with rfl | rfl
          · exact .inl rfl
          · exact .inr List.mem_cons_self
        · exact .inr (List.mem_cons_of_mem _ hm)
      · have hkc : p.prefers k c = false := hcall k (.inl rfl)
        rcases hx with rfl | hx
        · exact not_prefers_trans (hkall x (.inl rfl)) hkc
        · rcases List.mem_cons.mp hx with rfl | hx
          · exact not_prefers_trans (hkall x (.inr rfl)) hkc
          · exact hcall x (.inr hx)

theorem best?_cases (p : Preference) (as : List Action) :
    (as = [] ∧ p.best? as = none) ∨ ∃ a, p.best? as = some a ∧ p.Best (· ∈ as) a := by
  cases as with
  | nil => exact .inl ⟨rfl, rfl⟩
  | cons b as =>
      obtain ⟨c, hc, hbest⟩ := foldl_better_some p b as
      simp only [← List.mem_cons] at hbest
      exact .inr ⟨c, hc, hbest⟩

end Preference

namespace Json.Object

/-- Two objects hold the same under all keys, whatever the order of keys in them and in their values. -/
def Alike (fields fields' : Json.Object) : Prop :=
  ∀ k, Option.Rel (fun v v' => v = v' ∨ same v v' = true) (Entries.find? k fields)
    (Entries.find? k fields')

variable {fields fields' : Json.Object} {k s : String} {v : Json} {items : List Json}

theorem alike_of_find? (h : ∀ k, Entries.find? k fields = Entries.find? k fields') :
    fields.Alike fields' := by
  intro k
  rw [h k]
  cases Entries.find? k fields' with
  | none => exact .none
  | some v => exact .some (.inl rfl)

theorem Alike.find? (h : fields.Alike fields') (hv : Entries.find? k fields = some v) :
    ∃ v', Entries.find? k fields' = some v' ∧ (v = v' ∨ same v v' = true) := by
  have hk := h k
  rw [hv] at hk
  generalize Entries.find? k fields' = o at hk ⊢
  cases hk with
  | some hsame => exact ⟨_, rfl, hsame⟩

theorem Alike.string (h : fields.Alike fields') (hs : Entries.find? k fields = some (.string s)) :
    Entries.find? k fields' = some (.string s) := by
  obtain ⟨v, hv, rfl | hsame⟩ := h.find? hs
  · exact hv
  · have hstring := string?_of_same hsame
    cases v with
    | string s' => cases hstring; exact hv
    | _ => cases hstring

theorem Alike.strings (h : fields.Alike fields')
    (hs : Entries.find? k fields = some (.array items)) :
    ∃ items', Entries.find? k fields' = some (.array items') ∧
      Json.strings items = Json.strings items' := by
  obtain ⟨v, hv, rfl | hsame⟩ := h.find? hs
  · exact ⟨items, hv, rfl⟩
  · cases v with
    | array items' =>
        rw [same] at hsame
        exact ⟨items', hv, strings_of_sameItems hsame⟩
    | _ => simp [same] at hsame

end Json.Object

namespace Wish

def Asks (fields : Json.Object) (rule : String) : Prop :=
  ∃ items, Entries.find? "rules" fields = some (.array items) ∧ .string rule ∈ items

def Suggests (fields : Json.Object) (a : Action) : Prop :=
  Entries.find? "suggested" fields = some (.string a.name)

variable {fields fields' : Json.Object} {rule : String} {a : Action}

theorem mem_rules {w : Wish} : rule ∈ w.rules ↔ Asks w.fields rule := by
  rw [rules, Asks]
  split
  · next items hi => simp [hi, Json.mem_strings]
  · next hne =>
    simp only [List.not_mem_nil, false_iff]
    rintro ⟨items, hi, _⟩
    exact hne items hi

theorem suggestion?_eq_some_iff {w : Wish} : w.suggestion? = some a ↔ Suggests w.fields a := by
  rw [suggestion?, Suggests, Option.bind_eq_some_iff]
  constructor
  · rintro ⟨s, hs, ha⟩
    obtain ⟨v, hv, hvs⟩ := Option.bind_eq_some_iff.mp hs
    rw [hv, Json.string?_eq_some_iff.mp hvs, Action.ofName?_eq_some_iff.mp ha]
  · intro h
    exact ⟨a.name, by rw [h]; rfl, Action.ofName?_name a⟩

theorem Asks.alike (h : Asks fields rule) (ha : fields.Alike fields') : Asks fields' rule := by
  obtain ⟨items, hi, hr⟩ := h
  obtain ⟨items', hi', hs⟩ := ha.strings hi
  exact ⟨items', hi', Json.mem_strings.mp (hs ▸ Json.mem_strings.mpr hr)⟩

theorem Suggests.alike (h : Suggests fields a) (ha : fields.Alike fields') : Suggests fields' a :=
  ha.string h

end Wish

namespace Declaration

/-- A plugin of that name declares an object with these fields under the key. -/
def Wants (ds : List Declaration) (key name : String) (fields : Json.Object) : Prop :=
  ∃ d ∈ ds, d.name = name ∧ (key, .object fields) ∈ d.permissions

def Contained (ds ds' : List Declaration) : Prop :=
  ∀ key name fields, Wants ds key name fields →
    ∃ fields', Wants ds' key name fields' ∧ fields.Alike fields'

theorem Contained.wants {ds ds' : List Declaration} {key : String} (h : Contained ds ds')
    (hw : ∃ name fields, Wants ds key name fields) : ∃ name fields, Wants ds' key name fields := by
  obtain ⟨name, fields, hw⟩ := hw
  obtain ⟨fields', hw', _⟩ := h key name fields hw
  exact ⟨name, fields', hw'⟩

theorem mem_wishes {ds : List Declaration} {w : Wish} :
    w ∈ ds.flatMap wishes ↔ Wants ds w.key w.plugin w.fields := by
  rw [List.mem_flatMap, Wants]
  refine exists_congr fun d => and_congr_right fun _ => ?_
  rw [wishes, List.mem_filterMap]
  constructor
  · rintro ⟨⟨key, v⟩, hv, hw⟩
    obtain ⟨fields, hfields, rfl⟩ := Option.map_eq_some_iff.mp hw
    exact ⟨rfl, Json.object?_eq_some_iff.mp hfields ▸ hv⟩
  · rintro ⟨hname, hm⟩
    exact ⟨_, hm, by rw [hname]; rfl⟩

end Declaration

namespace Category

/-- The category of a key, told from who wants what under it. -/
structure Sums (preference : Preference) (key : String) (wanted : String → Json.Object → Prop)
    (c : Category) : Prop where
  label : c.label = (describe key).label
  description : c.description = (describe key).description
  ascending : IsAscending c.sources
  sources : ∀ name, name ∈ c.sources ↔ ∃ fields, wanted name fields
  rules : ∃ asked, (∀ r, r ∈ asked ↔ ∃ name fields, wanted name fields ∧ Wish.Asks fields r) ∧
    c.rules = Rule.reduce asked
  suggested :
    preference.Best (fun a => ∃ name fields, wanted name fields ∧ Wish.Suggests fields a) c.suggested ∨
    (∀ name fields, wanted name fields → ∀ a, ¬ Wish.Suggests fields a) ∧ c.suggested = .ask

variable {preference : Preference} {key : String} {c c' : Category}
  {wanted wanted' : String → Json.Object → Prop}

theorem sums_ofWishes (preference : Preference) (key : String) (ws : List Wish) :
    (ofWishes preference key ws).Sums preference key
      fun name fields => ∃ w ∈ ws, w.plugin = name ∧ w.fields = fields where
  label := rfl
  description := rfl
  ascending := Ascending.isAscending_ofList _
  sources name := by simp [ofWishes, Ascending.mem_ofList]
  rules := ⟨ws.flatMap Wish.rules, fun r => by simp [Wish.mem_rules], rfl⟩
  suggested := by
    rcases preference.best?_cases (ws.filterMap Wish.suggestion?) with ⟨hnil, hnone⟩ | ⟨a, ha, hbest⟩
    · refine .inr ⟨?_, by rw [ofWishes, hnone]; rfl⟩
      rintro _ _ ⟨w, hw, rfl, rfl⟩ a hs
      have hm := List.mem_filterMap.mpr ⟨w, hw, Wish.suggestion?_eq_some_iff.mpr hs⟩
      rw [hnil] at hm
      cases hm
    · have hset : (· ∈ ws.filterMap Wish.suggestion?) = fun a => ∃ name fields,
          (∃ w ∈ ws, w.plugin = name ∧ w.fields = fields) ∧ Wish.Suggests fields a := by
        funext a
        simp [Wish.suggestion?_eq_some_iff]
      rw [hset] at hbest
      exact .inl (by rw [ofWishes, ha]; exact hbest)

theorem Sums.unique (h : c.Sums preference key wanted) (h' : c'.Sums preference key wanted) :
    c = c' := by
  -- Lists in strict order are told by their members, and reduced rules by those they are reduced from.
  have hsources : c.sources = c'.sources :=
    List.Pairwise.eq_of_mem_iff h.ascending h'.ascending fun name => by rw [h.sources, h'.sources]
  have hrules : c.rules = c'.rules := by
    obtain ⟨asked, hasked, hr⟩ := h.rules
    obtain ⟨asked', hasked', hr'⟩ := h'.rules
    rw [hr, hr']
    exact Rule.reduce_congr fun r => by rw [hasked, hasked']
  have hsuggested : c.suggested = c'.suggested := by
    rcases h.suggested with hb | ⟨hnone, ha⟩
    · rcases h'.suggested with hb' | ⟨hnone', _⟩
      · exact hb.unique hb'
      · obtain ⟨⟨name, fields, hw, hs⟩, _⟩ := Preference.best_iff.mp hb
        exact absurd hs (hnone' name fields hw _)
    · rcases h'.suggested with hb' | ⟨_, ha'⟩
      · obtain ⟨⟨name, fields, hw, hs⟩, _⟩ := Preference.best_iff.mp hb'
        exact absurd hs (hnone name fields hw _)
      · rw [ha, ha']
  have hlabel := h.label.trans h'.label.symm
  have hdescription := h.description.trans h'.description.symm
  cases c
  cases c'
  simp_all

theorem exists_wanted_of_alike {P wants wants' : Json.Object → Prop}
    (hP : ∀ f f', P f → Json.Object.Alike f f' → P f')
    (hto : ∀ fields, wants fields → ∃ fields', wants' fields' ∧ fields.Alike fields')
    (h : ∃ fields, wants fields ∧ P fields) : ∃ fields, wants' fields ∧ P fields := by
  obtain ⟨fields, hw, hp⟩ := h
  obtain ⟨fields', hw', ha⟩ := hto fields hw
  exact ⟨fields', hw', hP _ _ hp ha⟩

theorem Sums.alike (h : c.Sums preference key wanted)
    (hto : ∀ name fields, wanted name fields → ∃ fields', wanted' name fields' ∧ fields.Alike fields')
    (hfrom : ∀ name fields, wanted' name fields → ∃ fields', wanted name fields' ∧ fields.Alike fields') :
    c.Sums preference key wanted' := by
  have hsome {P : Json.Object → Prop} (hP : ∀ f f', P f → Json.Object.Alike f f' → P f')
      (name : String) : (∃ fields, wanted' name fields ∧ P fields) ↔ ∃ fields, wanted name fields ∧ P fields :=
    ⟨exists_wanted_of_alike hP (hfrom name), exists_wanted_of_alike hP (hto name)⟩
  have hany (name : String) : (∃ fields, wanted' name fields) ↔ ∃ fields, wanted name fields := by
    simpa using hsome (P := fun _ => True) (fun _ _ _ _ => trivial) name
  have hasks (r : String) := exists_congr (hsome (P := (Wish.Asks · r)) fun _ _ => Wish.Asks.alike)
  have hsuggests (a : Action) := exists_congr
    (hsome (P := (Wish.Suggests · a)) fun _ _ => Wish.Suggests.alike)
  refine ⟨h.label, h.description, h.ascending, fun name => by rw [h.sources, hany], ?_, ?_⟩
  · obtain ⟨asked, hasked, hr⟩ := h.rules
    exact ⟨asked, fun r => by rw [hasked, hasks], hr⟩
  · simp only [hsuggests]
    refine h.suggested.imp_right fun ⟨hnone, ha⟩ => ⟨fun name fields hw a hs => ?_, ha⟩
    obtain ⟨name', fields', hw', hs'⟩ := (hsuggests a).mp ⟨name, fields, hw, hs⟩
    exact hnone name' fields' hw' a hs'

end Category

namespace Categories

variable (preference : Preference) (ds : List Declaration)

theorem keys_ofDeclarations : Entries.keys (ofDeclarations preference ds) =
    Ascending.ofList ((ds.flatMap Declaration.wishes).map Wish.key) := Entries.keys_tabulate _ _

theorem mem_keys_ofDeclarations {key : String} : key ∈ Entries.keys (ofDeclarations preference ds) ↔
    ∃ name fields, Declaration.Wants ds key name fields := by
  rw [keys_ofDeclarations, Ascending.mem_ofList, List.mem_map]
  constructor
  · rintro ⟨w, hw, rfl⟩
    exact ⟨_, _, Declaration.mem_wishes.mp hw⟩
  · rintro ⟨name, fields, hw⟩
    exact ⟨⟨name, key, fields⟩, Declaration.mem_wishes.mpr hw, rfl⟩

theorem find?_ofDeclarations (key : String) : Entries.find? key (ofDeclarations preference ds) =
    if key ∈ Entries.keys (ofDeclarations preference ds) then
      some (.ofWishes preference key ((ds.flatMap Declaration.wishes).filter fun w => w.key = key))
    else none := by
  rw [keys_ofDeclarations]
  exact Entries.find?_tabulate _ _ key

theorem sums_of_find? {key : String} {c : Category}
    (h : Entries.find? key (ofDeclarations preference ds) = some c) :
    c.Sums preference key (Declaration.Wants ds key) := by
  rw [find?_ofDeclarations] at h
  obtain ⟨_, hc⟩ := Option.ite_none_right_eq_some.mp h
  cases hc
  have hwants : (fun name fields => ∃ w ∈ (ds.flatMap Declaration.wishes).filter fun w => w.key = key,
      w.plugin = name ∧ w.fields = fields) = Declaration.Wants ds key := by
    funext name fields
    refine propext ⟨?_, fun hw => ?_⟩
    · rintro ⟨w, hw, rfl, rfl⟩
      obtain ⟨hm, hkey⟩ := List.mem_filter.mp hw
      exact of_decide_eq_true hkey ▸ Declaration.mem_wishes.mp hm
    · exact ⟨⟨name, key, fields⟩,
        List.mem_filter.mpr ⟨Declaration.mem_wishes.mpr hw, decide_eq_true rfl⟩, rfl, rfl⟩
  exact hwants ▸ Category.sums_ofWishes preference key _

/-- The categories are those of the keys under which something is wanted, each told from who wants what
there, so lists in which the same is wanted give the same categories. -/
theorem ofDeclarations_ignores_order :
    IsAscending (Entries.keys (ofDeclarations preference ds)) ∧
    (∀ key, key ∈ Entries.keys (ofDeclarations preference ds) ↔
      ∃ name fields, Declaration.Wants ds key name fields) ∧
    (∀ key c, Entries.find? key (ofDeclarations preference ds) = some c →
      c.Sums preference key (Declaration.Wants ds key)) ∧
    ∀ ds', Declaration.Contained ds ds' → Declaration.Contained ds' ds →
      ofDeclarations preference ds = ofDeclarations preference ds' := by
  have hascending (ds : List Declaration) : IsAscending (Entries.keys (ofDeclarations preference ds)) :=
    keys_ofDeclarations preference ds ▸ Ascending.isAscending_ofList _
  refine ⟨hascending ds, fun key => mem_keys_ofDeclarations preference ds,
    fun key c => sums_of_find? preference ds, fun ds' hto hfrom => ?_⟩
  refine Index.eq_of_find? (hascending ds) (hascending ds') fun key => ?_
  have hmem : key ∈ Entries.keys (ofDeclarations preference ds) ↔
      key ∈ Entries.keys (ofDeclarations preference ds') := by
    rw [mem_keys_ofDeclarations, mem_keys_ofDeclarations]
    exact ⟨hto.wants, hfrom.wants⟩
  cases hc : Entries.find? key (ofDeclarations preference ds) with
  | none =>
      rw [Entries.find?_eq_none_iff, hmem] at hc
      exact (Entries.find?_eq_none_iff.mpr hc).symm
  | some c =>
      cases hc' : Entries.find? key (ofDeclarations preference ds') with
      | none =>
          rw [Entries.find?_eq_none_iff, ← hmem, ← Entries.find?_eq_none_iff, hc] at hc'
          cases hc'
      | some c' =>
          have h := (sums_of_find? preference ds hc).alike (hto key) (hfrom key)
          exact congrArg some (h.unique (sums_of_find? preference ds' hc'))

def gitFields : Json.Object :=
  [("rules", Json.ofStrings ["Bash(git push:*)", "Bash(git:*)"]), ("suggested", .string "deny")]

theorem alike_reverse_gitFields :
    gitFields.Alike gitFields.reverse ∧ Json.Object.Alike gitFields.reverse gitFields := by
  have hsame (k : String) : Entries.find? k gitFields = Entries.find? k gitFields.reverse := by
    by_cases hr : "rules" = k
    · subst hr; rfl
    · simp [gitFields, Entries.find?, hr]
  exact ⟨Json.Object.alike_of_find? hsame, Json.Object.alike_of_find? fun k => (hsame k).symm⟩

def helper : Declaration := ⟨"x", [("git", .object [("rules", .null), ("suggested", .string "allow")])]⟩

def declared : List Declaration := [⟨"y", [("mcp", .null), ("git", .object gitFields)]⟩, helper]

def redeclared : List Declaration :=
  [helper, ⟨"y", [("git", .object gitFields.reverse), ("net", .null)]⟩, helper]

theorem contained_declared : Declaration.Contained declared redeclared := by
  rintro key name fields ⟨d, hd, rfl, hf⟩
  rcases List.mem_pair.mp hd with rfl | rfl
  · obtain ⟨rfl, rfl⟩ : key = "git" ∧ fields = gitFields := by simpa using hf
    exact ⟨_, ⟨_, List.mem_cons_of_mem _ List.mem_cons_self, rfl, List.mem_cons_self⟩,
      alike_reverse_gitFields.1⟩
  · exact ⟨fields, ⟨helper, List.mem_cons_self, rfl, hf⟩, Json.Object.alike_of_find? fun _ => rfl⟩

theorem contained_redeclared : Declaration.Contained redeclared declared := by
  rintro key name fields ⟨d, hd, rfl, hf⟩
  by_cases hx : d = helper
  · subst hx
    exact ⟨fields, ⟨helper, by simp [declared], rfl, hf⟩, Json.Object.alike_of_find? fun _ => rfl⟩
  · obtain rfl : d = ⟨"y", [("git", .object gitFields.reverse), ("net", .null)]⟩ := by
      simpa [redeclared, hx] using hd
    obtain ⟨rfl, rfl⟩ : key = "git" ∧ fields = gitFields.reverse := by simpa using hf
    exact ⟨_, ⟨_, List.mem_cons_self, rfl, by simp⟩, alike_reverse_gitFields.2⟩

theorem ofDeclarations_ignores_order_redeclared :
    ofDeclarations .mostPermissive declared = ofDeclarations .mostPermissive redeclared ∧
    (ofDeclarations .mostPermissive redeclared).map (fun c => (c.1, c.2.rules, c.2.suggested, c.2.sources)) =
      [("git", ["Bash(git:*)"], .allow, ["x", "y"])] := by
  have h := ofDeclarations_ignores_order .mostPermissive declared
  exact ⟨h.2.2.2 redeclared contained_declared contained_redeclared, by decide +kernel⟩

end Categories

end PluginConsent
