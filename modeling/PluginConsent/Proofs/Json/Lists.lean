import PluginConsent.Proofs.Index
import PluginConsent.Proofs.Json.Text

namespace PluginConsent

namespace Json

def ofLists (fs : Entries String (List String)) : Object := fs.map fun f => (f.1, ofStrings f.2)

theorem ofLists_cons (f : String × List String) (fs : Entries String (List String)) :
    ofLists (f :: fs) = (f.1, ofStrings f.2) :: ofLists fs := rfl

def itemTokens (s : String) : List Token := [.comma, .string s]

def listTokens : List String → List Token
  | [] => [.openBracket, .closeBracket]
  | s :: ss => [.openBracket, .string s] ++ ss.flatMap itemTokens ++ [.closeBracket]

def fieldTokens (f : String × List String) : List Token := .string f.1 :: .colon :: listTokens f.2

def objectTokens : Entries String (List String) → List Token
  | [] => [.openBrace, .closeBrace]
  | f :: fs =>
    .openBrace :: fieldTokens f ++ fs.flatMap (fun f => .comma :: fieldTokens f) ++ [.closeBrace]

namespace Token

def Gives (text : String) (ts : List Token) : Prop :=
  ∀ done, text.toList.foldlM feed? ⟨done, .between⟩ = some ⟨ts.reverse ++ done, .between⟩

variable {text text' : String} {ts ts' : List Token}

theorem Gives.append (h : Gives text ts) (h' : Gives text' ts') : Gives (text ++ text') (ts ++ ts') := by
  intro done
  rw [String.toList_append, List.foldlM_append, h]
  simpa using h' (ts.reverse ++ done)

theorem Gives.ofChars? (h : Gives text ts) : ofChars? text.toList = some ts := by
  rw [Token.ofChars?, h]
  simp [finish?]

theorem gives_quote (s : String) : Gives (quote s) [.string s] := foldlM_feed?_quote s

theorem gives_colon : Gives (Layout.colon ⟨some 2⟩) [.colon] := fun _ => rfl

theorem gives_line (level : Nat) : Gives (Layout.line ⟨some 2⟩ level) [] := by
  have hspaces (n : Nat) : Gives (Nat.repeat (fun s => s.push ' ') n "\n") [] := by
    induction n with
    | zero => exact fun _ => rfl
    | succ n ih =>
        have hspace : Gives " " [] := fun _ => rfl
        have hpush (s : String) : s.push ' ' = s ++ " " := String.append_singleton.symm
        rw [Nat.repeat, hpush]
        exact ih.append hspace
  exact hspaces _

end Token

open Token

theorem gives_items (level : Nat) (ss : List String) :
    Gives (writeItems ⟨some 2⟩ level "" (ss.map .string)) (ss.flatMap itemTokens) := by
  induction ss with
  | nil => exact fun _ => rfl
  | cons s ss ih =>
      have hcomma : Gives "," [.comma] := fun _ => rfl
      have h := ((hcomma.append (gives_line level)).append (gives_quote s)).append ih
      rw [List.map_cons, writeItems, writeItems_append, write_append]
      simpa [write, itemTokens] using h

theorem gives_list (level : Nat) (ss : List String) :
    Gives (write ⟨some 2⟩ level "" (ofStrings ss)) (listTokens ss) := by
  have hopen : Gives "[" [.openBracket] := fun _ => rfl
  have hclose : Gives "]" [.closeBracket] := fun _ => rfl
  cases ss with
  | nil => exact hopen.append hclose
  | cons s ss =>
      have h := ((((hopen.append (gives_line (level + 1))).append (gives_quote s)).append
        (gives_items (level + 1) ss)).append (gives_line level)).append hclose
      rw [ofStrings, List.map_cons, write, writeItems_append, write_append]
      simpa [write, listTokens] using h

theorem gives_field (level : Nat) (f : String × List String) :
    Gives (quote f.1 ++ Layout.colon ⟨some 2⟩ ++ write ⟨some 2⟩ level "" (ofStrings f.2))
      (fieldTokens f) :=
  ((gives_quote f.1).append gives_colon).append (gives_list level f.2)

theorem gives_fields (level : Nat) (fs : Entries String (List String)) :
    Gives (writeFields ⟨some 2⟩ level "" (ofLists fs))
      (fs.flatMap fun f => .comma :: fieldTokens f) := by
  induction fs with
  | nil => exact fun _ => rfl
  | cons f fs ih =>
      have hcomma : Gives "," [.comma] := fun _ => rfl
      have h := ((hcomma.append (gives_line level)).append (gives_field level f)).append ih
      rw [ofLists_cons, writeFields, writeFields_append, write_append]
      simpa [String.append_assoc] using h

theorem gives_pretty (fs : Entries String (List String)) :
    Gives (pretty (.object (ofLists fs))) (objectTokens fs) := by
  have hopen : Gives "\x7b" [.openBrace] := fun _ => rfl
  have hclose : Gives "\x7d" [.closeBrace] := fun _ => rfl
  cases fs with
  | nil => exact hopen.append hclose
  | cons f fs =>
      have h := ((((hopen.append (gives_line 1)).append (gives_field 1 f)).append
        (gives_fields 1 fs)).append (gives_line 0)).append hclose
      rw [pretty, ofLists_cons, write, writeFields_append, write_append]
      simpa [String.append_assoc, objectTokens] using h

namespace Builder

variable {stack : List Frame}

theorem foldlM_items (done : List Json) (ss : List String) :
    (ss.flatMap itemTokens).foldlM feed? (.separator (.items done :: stack)) =
      some (.separator (.items ((ss.map .string).reverse ++ done) :: stack)) := by
  induction ss generalizing done with
  | nil => rfl
  | cons s ss ih =>
      rw [List.flatMap_cons, List.foldlM_append]
      have hitem : (itemTokens s).foldlM feed? (.separator (.items done :: stack)) =
          some (.separator (.items (.string s :: done) :: stack)) := rfl
      rw [hitem]
      simpa using ih (.string s :: done)

theorem foldlM_list (ss : List String) (h : stack.length < maxDepth) :
    (listTokens ss).foldlM feed? (.value stack) = complete? (ofStrings ss) stack := by
  have hopen : feed? (.value stack) .openBracket = some (.firstItem stack) := by
    simp [feed?, value?, h]
  cases ss with
  | nil =>
      rw [listTokens, List.foldlM_cons, hopen]
      simp [feed?, ofStrings]
  | cons s ss =>
      rw [listTokens, List.foldlM_append, List.foldlM_append, List.foldlM_cons, hopen]
      have hfirst : [Token.string s].foldlM feed? (.firstItem stack) =
          some (.separator (.items [.string s] :: stack)) := rfl
      simp only [Option.bind_eq_bind, Option.bind_some, hfirst, foldlM_items]
      rw [List.foldlM_cons]
      simp [feed?, separator?, ofStrings]

theorem foldlM_field {start : Builder} {done : Object} (f : String × List String)
    (hstart : feed? start (.string f.1) = some (.colon [.member done f.1]))
    (h : f.1 ∉ Entries.keys done) :
    (fieldTokens f).foldlM feed? start =
      some (.separator [.fields (done ++ [(f.1, ofStrings f.2)])]) := by
  have hcolon : feed? (.colon [.member done f.1]) .colon = some (.value [.member done f.1]) := rfl
  have hshallow : [Frame.member done f.1].length < maxDepth := by simp [maxDepth]
  rw [fieldTokens, List.foldlM_cons, hstart]
  simp only [Option.bind_eq_bind, Option.bind_some, List.foldlM_cons, hcolon]
  rw [foldlM_list f.2 hshallow, complete?, Entries.put_of_notMem h]

theorem foldlM_fields {done fs : Entries String (List String)}
    (h : (Entries.keys (done ++ fs)).Nodup) :
    (fs.flatMap fun f => .comma :: fieldTokens f).foldlM feed? (.separator [.fields (ofLists done)]) =
      some (.separator [.fields (ofLists (done ++ fs))]) := by
  induction fs generalizing done with
  | nil => simp
  | cons f fs ih =>
      have hnew : f.1 ∉ Entries.keys (ofLists done) := by
        simp only [Entries.keys, List.map_append, List.map_cons, List.nodup_append] at h
        simp only [Entries.keys, ofLists, List.map_map]
        exact fun hm => h.2.2 f.1 (by simpa using hm) f.1 (by simp) rfl
      have hcomma : feed? (.separator [.fields (ofLists done)]) .comma =
          some (.key (ofLists done) []) := rfl
      rw [List.append_cons] at h ⊢
      rw [List.flatMap_cons, List.foldlM_append, List.foldlM_cons, hcomma]
      simp only [Option.bind_eq_bind, Option.bind_some]
      rw [foldlM_field f rfl hnew, Option.bind_some, ← ih h]
      simp [ofLists]

theorem ofTokens?_object {fs : Entries String (List String)} (h : (Entries.keys fs).Nodup) :
    ofTokens? (objectTokens fs) = some (.object (ofLists fs)) := by
  cases fs with
  | nil => rfl
  | cons f fs =>
      have hopen : feed? (.value []) .openBrace = some (.firstKey []) := rfl
      rw [ofTokens?, objectTokens, List.foldlM_append, List.cons_append, List.foldlM_cons, hopen]
      simp only [Option.bind_eq_bind, Option.bind_some, List.foldlM_append]
      rw [foldlM_field f rfl (by simp [Entries.keys]), Option.bind_some]
      have hrest := @foldlM_fields [f] fs h
      simp only [ofLists, List.map_cons, List.map_nil, List.nil_append] at hrest ⊢
      rw [hrest]
      rfl

end Builder

theorem ofString?_pretty_ofLists {fs : Entries String (List String)} (h : (Entries.keys fs).Nodup) :
    ofString? (pretty (.object (ofLists fs))) = some (.object (ofLists fs)) := by
  rw [ofString?, (gives_pretty fs).ofChars?]
  exact Builder.ofTokens?_object h

end Json

end PluginConsent
