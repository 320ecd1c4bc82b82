import VirtualModem.Json.Value
import VirtualModem.Proofs.Json.Grammar
import VirtualModem.Proofs.Json.Integers
/-!
# Reading back what was printed

The trees that are printed hold texts and integers, not just any written characters and numerals.
The printed text of such a tree is read as the tree itself: its tokens are those of the tree in
either layout, and the machine that builds trees closes with each value what it opened with it.
-/

namespace VirtualModem.Json
set_option autoImplicit false

theorem string?_pieces (s : String) : string? (pieces s) = some s := by
  have htext (cs : List Char) : text? (cs.map .char) = some cs := by
    induction cs with
    | nil => rfl
    | cons c cs ih =>
      rw [List.map_cons, text?, ih]
      rfl
  rw [string?, pieces, htext, Option.map_some, String.ofList_toList]

namespace Tree

/-- Trees made of texts and integers. -/
inductive Plain : Tree → Prop
  | null : Plain .null
  | bool (b : Bool) : Plain (.bool b)
  | integer (z : Int) : Plain (.ofInt z)
  | string (s : String) : Plain (.ofString s)
  | array {items : List Tree} (h : ∀ t ∈ items, Plain t) : Plain (.array items)
  | object {fields : List (String × Tree)} (h : ∀ f ∈ fields, Plain f.2) : Plain (.ofFields fields)

mutual

/-- The tokens of a tree. -/
def tokens : Tree → List Token
  | .null => [.word "null".toList]
  | .bool b => [.word (if b then "true" else "false").toList]
  | .number n => [.word n.toChars]
  | .string text => [.quoted text]
  | .array [] => [.openBracket, .closeBracket]
  | .array (t :: ts) => .openBracket :: t.tokens ++ itemTokens ts ++ [.closeBracket]
  | .object [] => [.openBrace, .closeBrace]
  | .object ((k, t) :: ms) =>
    .openBrace :: .quoted k :: .colon :: t.tokens ++ memberTokens ms ++ [.closeBrace]

def itemTokens : List Tree → List Token
  | [] => []
  | t :: ts => .comma :: t.tokens ++ itemTokens ts

def memberTokens : List (List Piece × Tree) → List Token
  | [] => []
  | (k, t) :: ms => .comma :: .quoted k :: .colon :: t.tokens ++ memberTokens ms

end

theorem isSpace_newline (level : Nat) : (newline level).all isSpace = true := by
  rw [newline, List.all_cons, List.all_replicate]
  exact ite_self true

theorem prettyItems_eq (level : Nat) (items : List Tree) :
    prettyItems level items = items.flatMap fun t => ',' :: (newline level ++ t.pretty level) := by
  induction items with
  | nil => rfl
  | cons t items ih => rw [prettyItems, ih, List.flatMap_cons, List.cons_append]

theorem compactItems_eq (items : List Tree) :
    compactItems items = items.flatMap fun t => ',' :: ([] ++ t.compact) := by
  induction items with
  | nil => rfl
  | cons t items ih => rw [compactItems, ih, List.flatMap_cons, List.nil_append]

theorem prettyMembers_eq (level : Nat) (fields : List (String × Tree)) :
    prettyMembers level (fields.map fun (k, t) => (pieces k, t)) = fields.flatMap fun f =>
      ',' :: (newline level ++ (quote (pieces f.1) ++ ':' :: ([' '] ++ f.2.pretty level))) := by
  induction fields with
  | nil => rfl
  | cons f fields ih =>
    rw [List.map_cons, prettyMembers, ih, List.flatMap_cons]
    simp only [List.append_assoc, List.cons_append, List.nil_append]

theorem compactMembers_eq (fields : List (String × Tree)) :
    compactMembers (fields.map fun (k, t) => (pieces k, t)) = fields.flatMap fun f =>
      ',' :: ([] ++ (quote (pieces f.1) ++ ':' :: ([] ++ f.2.compact))) := by
  induction fields with
  | nil => rfl
  | cons f fields ih =>
    rw [List.map_cons, compactMembers, ih, List.flatMap_cons]
    simp only [List.append_assoc, List.cons_append, List.nil_append]

section Layout
-- `gap` stands before each item or member, `back` after the last one and `space` after a colon
variable {render : Tree → List Char} {gap back space : List Char}

theorem follows_items (hgap : gap.all isSpace = true) {items : List Tree}
    (hitems : ∀ t ∈ items, Spells (render t) t.tokens) {cs : List Char} {ts : List Token}
    (h : Follows cs ts) :
    Follows (items.flatMap (fun t => ',' :: (gap ++ render t)) ++ cs) (itemTokens items ++ ts) := by
  induction items with
  | nil => exact h
  | cons t items ih =>
    have hrest := ih fun u hu => hitems u (List.mem_cons_of_mem t hu)
    have hitem := (hitems t List.mem_cons_self).append_follows hrest
    rw [itemTokens, List.flatMap_cons]
    simpa only [List.append_assoc, List.cons_append, List.nil_append] using
      Follows.punctuation (c := ',') rfl ((Closed.spaces hgap).append hitem)

theorem closed_member (hspace : space.all isSpace = true) (k : String) {t : Tree}
    (ht : Spells (render t) t.tokens) {cs : List Char} {ts : List Token} (h : Follows cs ts) :
    Closed (quote (pieces k) ++ ':' :: (space ++ (render t ++ cs)))
      (.quoted (pieces k) :: .colon :: (t.tokens ++ ts)) := by
  have hvalue : Closed (space ++ (render t ++ cs)) (t.tokens ++ ts) :=
    (Closed.spaces hspace).append (ht.append_follows h)
  exact (Closed.quote k).append (Follows.punctuation (c := ':') rfl hvalue).closed

theorem follows_members (hgap : gap.all isSpace = true) (hspace : space.all isSpace = true)
    {fields : List (String × Tree)} (hfields : ∀ f ∈ fields, Spells (render f.2) f.2.tokens)
    {cs : List Char} {ts : List Token} (h : Follows cs ts) :
    Follows (fields.flatMap (fun f =>
        ',' :: (gap ++ (quote (pieces f.1) ++ ':' :: (space ++ render f.2)))) ++ cs)
      (memberTokens (fields.map fun (k, t) => (pieces k, t)) ++ ts) := by
  induction fields with
  | nil => exact h
  | cons f fields ih =>
    have hrest := ih fun g hg => hfields g (List.mem_cons_of_mem f hg)
    have hmember := closed_member hspace f.1 (hfields f List.mem_cons_self) hrest
    rw [List.map_cons, memberTokens, List.flatMap_cons]
    simpa only [List.append_assoc, List.cons_append, List.nil_append] using
      Follows.punctuation (c := ',') rfl ((Closed.spaces hgap).append hmember)

theorem spells_array (hgap : gap.all isSpace = true) (hback : back.all isSpace = true) {t : Tree}
    {items : List Tree} (h : ∀ u ∈ t :: items, Spells (render u) u.tokens) :
    Spells ('[' :: (gap ++ (render t ++
        (items.flatMap (fun u => ',' :: (gap ++ render u)) ++ (back ++ [']'])))))
      (tokens (.array (t :: items))) := by
  have hclose : Follows (back ++ [']']) [.closeBracket] :=
    .spaces hback (.punctuation rfl .nil)
  rw [List.forall_mem_cons] at h
  have hitems := h.1.append_follows (follows_items hgap h.2 hclose)
  rw [tokens]
  simpa only [List.append_assoc, List.cons_append, List.nil_append] using
    (Follows.punctuation (c := '[') rfl ((Closed.spaces hgap).append hitems)).closed.spells

theorem spells_object (hgap : gap.all isSpace = true) (hback : back.all isSpace = true)
    (hspace : space.all isSpace = true) {f : String × Tree} {fields : List (String × Tree)}
    (h : ∀ g ∈ f :: fields, Spells (render g.2) g.2.tokens) :
    Spells ('\x7b' :: (gap ++ (quote (pieces f.1) ++ ':' :: (space ++ (render f.2 ++
        (fields.flatMap (fun g =>
          ',' :: (gap ++ (quote (pieces g.1) ++ ':' :: (space ++ render g.2)))) ++
            (back ++ ['\x7d'])))))))
      (tokens (.ofFields (f :: fields))) := by
  have hclose : Follows (back ++ ['\x7d']) [.closeBrace] :=
    .spaces hback (.punctuation rfl .nil)
  rw [List.forall_mem_cons] at h
  have hmembers := closed_member hspace f.1 h.1 (follows_members hgap hspace h.2 hclose)
  rw [ofFields, List.map_cons, tokens]
  simpa only [List.append_assoc, List.cons_append, List.nil_append] using
    (Follows.punctuation (c := '\x7b') rfl ((Closed.spaces hgap).append hmembers)).closed.spells

end Layout

theorem spells_integer (z : Int) :
    Spells (Numeral.ofInt z).toChars [.word (Numeral.ofInt z).toChars] := by
  obtain ⟨hne, hw⟩ := isWord_of_writes (Numeral.writes_ofInt z)
  refine .word hne (List.all_eq_true.mpr fun c hc => ?_)
  rw [hw c hc]
  rfl

theorem spells_bool (b : Bool) :
    Spells (if b then "true" else "false").toList
      [.word (if b then "true" else "false").toList] := by
  cases b <;> exact .word (by decide) (by decide)

theorem Plain.spells_pretty {t : Tree} (ht : t.Plain) (level : Nat) :
    Spells (t.pretty level) t.tokens := by
  induction ht generalizing level with
  | null =>
    rw [pretty, tokens]
    exact .word (by decide) (by decide)
  | bool b =>
    rw [pretty, tokens]
    exact spells_bool b
  | integer z =>
    rw [ofInt, pretty, tokens]
    exact spells_integer z
  | string s => exact (Closed.quote s).spells
  | @array items _ ih =>
    cases items with
    | nil => exact (Closed.append (.punctuation rfl : Closed ['['] _) (.punctuation rfl)).spells
    | cons t items =>
      have harray := spells_array (isSpace_newline (level + 1)) (isSpace_newline level)
        fun u hu => ih u hu (level + 1)
      rw [pretty, prettyItems_eq]
      simpa only [List.append_assoc, List.cons_append] using harray
  | @object fields _ ih =>
    cases fields with
    | nil => exact (Closed.append (.punctuation rfl : Closed ['\x7b'] _) (.punctuation rfl)).spells
    | cons f fields =>
      have hobject := spells_object (isSpace_newline (level + 1)) (isSpace_newline level)
        (rfl : [' '].all isSpace = true) fun g hg => ih g hg (level + 1)
      rw [ofFields, List.map_cons] at hobject ⊢
      rw [pretty, prettyMembers_eq]
      simpa only [List.append_assoc, List.cons_append, List.nil_append] using hobject

theorem Plain.spells_compact {t : Tree} (ht : t.Plain) : Spells t.compact t.tokens := by
  have hnone : ([] : List Char).all isSpace = true := rfl
  induction ht with
  | null =>
    rw [compact, tokens]
    exact .word (by decide) (by decide)
  | bool b =>
    rw [compact, tokens]
    exact spells_bool b
  | integer z =>
    rw [ofInt, compact, tokens]
    exact spells_integer z
  | string s => exact (Closed.quote s).spells
  | @array items _ ih =>
    cases items with
    | nil => exact (Closed.append (.punctuation rfl : Closed ['['] _) (.punctuation rfl)).spells
    | cons t items =>
      have harray := spells_array hnone hnone ih
      rw [compact, compactItems_eq]
      simpa only [List.append_assoc, List.cons_append, List.nil_append] using harray
  | @object fields _ ih =>
    cases fields with
    | nil => exact (Closed.append (.punctuation rfl : Closed ['\x7b'] _) (.punctuation rfl)).spells
    | cons f fields =>
      have hobject := spells_object hnone hnone hnone ih
      rw [ofFields, List.map_cons] at hobject ⊢
      rw [compact, compactMembers_eq]
      simpa only [List.append_assoc, List.cons_append, List.nil_append] using hobject

theorem itemTokens_eq (items : List Tree) :
    itemTokens items = (items.map tokens).flatMap (.comma :: ·) := by
  induction items with
  | nil => rfl
  | cons t items ih =>
    rw [itemTokens, ih]
    rfl

theorem memberTokens_eq (fields : List (String × Tree)) :
    memberTokens (fields.map fun (k, t) => (pieces k, t)) =
      (fields.map fun f => Part.tokens (pieces f.1, f.2.tokens, f.2)).flatMap (.comma :: ·) := by
  induction fields with
  | nil => rfl
  | cons f fields ih =>
    rw [List.map_cons, memberTokens, ih]
    rfl

theorem Plain.forms {t : Tree} (ht : t.Plain) : Forms t.tokens t := by
  induction ht with
  | null => exact .null
  | bool b => exact .bool b
  | integer z => exact .number (Numeral.writes_ofInt z)
  | string s => exact .string (pieces s)
  | @array items _ ih =>
    have hforms := Forms.array (items.map fun t => (t.tokens, t))
      (List.forall_mem_map.mpr ih)
    rw [List.map_map, List.map_map, Function.comp_def, Function.comp_def, List.map_id'] at hforms
    cases items with
    | nil => exact hforms
    | cons t items =>
      rw [List.map_cons, intercalate_cons] at hforms
      rw [tokens, itemTokens_eq]
      exact hforms
  | @object fields _ ih =>
    have hforms := Forms.object (fields.map fun f => (pieces f.1, f.2.tokens, f.2))
      (List.forall_mem_map.mpr ih)
    rw [List.map_map, List.map_map, Function.comp_def, Function.comp_def] at hforms
    cases fields with
    | nil => exact hforms
    | cons f fields =>
      rw [List.map_cons, intercalate_cons] at hforms
      rw [ofFields, List.map_cons, tokens, memberTokens_eq]
      exact hforms

theorem Plain.ofString?_eq {t : Tree} (ht : t.Plain) {s : String} (hs : Spells s.toList t.tokens) :
    ofString? s = some t :=
  ofString?_eq_some_iff.mpr ⟨_, tokens?_eq_some_iff.mp hs.tokens?, ht.forms⟩

theorem Plain.ofString?_toPrettyString {t : Tree} (ht : t.Plain) :
    ofString? t.toPrettyString = some t := by
  refine ht.ofString?_eq ?_
  rw [toPrettyString, String.toList_ofList]
  exact ht.spells_pretty 0

theorem Plain.ofString?_toCompactString {t : Tree} (ht : t.Plain) :
    ofString? t.toCompactString = some t := by
  refine ht.ofString?_eq ?_
  rw [toCompactString, String.toList_ofList]
  exact ht.spells_compact

end Tree

end VirtualModem.Json
