import VirtualModem.Proofs.Json.Layout
import VirtualModem.Proofs.Json.Numerals
import VirtualModem.Json.Tree
/-!
# The grammar of trees

A value is a literal, a number, a string, or a list of items or members between brackets, with
commas between them and nowhere else. The machine that builds trees accepts just the tokens of one
value. A text and its tree determine each other up to white space and spelling, so what a document
says can be told without the machine.
-/

namespace VirtualModem.Json
set_option autoImplicit false

namespace Tree

abbrev Part : Type := List Piece × List Token × Tree

def Part.tokens (p : Part) : List Token :=
  .quoted p.1 :: .colon :: p.2.1

def Part.member (p : Part) : List Piece × Tree :=
  (p.1, p.2.2)

/-- The tokens of a value. -/
inductive Forms : List Token → Tree → Prop
  | null : Forms [.word "null".toList] .null
  | bool (b : Bool) : Forms [.word (if b then "true" else "false").toList] (.bool b)
  | number {w : List Char} {n : Numeral} (h : n.Writes w) : Forms [.word w] (.number n)
  | string (text : List Piece) : Forms [.quoted text] (.string text)
  | array (items : List (List Token × Tree)) (h : ∀ p ∈ items, Forms p.1 p.2) :
    Forms (.openBracket :: ([.comma].intercalate (items.map (·.1)) ++ [.closeBracket]))
      (.array (items.map (·.2)))
  | object (parts : List Part) (h : ∀ p ∈ parts, Forms p.2.1 p.2.2) :
    Forms (.openBrace :: ([.comma].intercalate (parts.map Part.tokens) ++ [.closeBrace]))
      (.object (parts.map Part.member))

/-- A text of a tree, with white space anywhere between its tokens. -/
def Writes (t : Tree) (cs : List Char) : Prop :=
  ∃ ts, Layout cs ts ∧ Forms ts t

theorem intercalate_cons {α : Type} (sep : α) (x : List α) (xs : List (List α)) :
    [sep].intercalate (x :: xs) = x ++ xs.flatMap (sep :: ·) := by
  induction xs generalizing x with
  | nil => simp [List.intercalate]
  | cons y ys ih =>
    rw [List.flatMap_cons, List.cons_append, ← ih y]
    simp [List.intercalate]

theorem intercalate_append_singleton {α : Type} (sep : α) (xs : List (List α)) (x : List α) :
    [sep].intercalate (xs ++ [x]) = xs.flatMap (· ++ [sep]) ++ x := by
  induction xs with
  | nil => simp [List.intercalate]
  | cons y ys ih =>
    obtain ⟨z, zs, hz⟩ := List.exists_cons_of_ne_nil (List.append_ne_nil_of_right_ne_nil ys
      (List.cons_ne_nil x []))
    rw [List.cons_append, List.flatMap_cons, List.append_assoc, ← ih, hz, intercalate_cons,
      intercalate_cons]
    simp

theorem mem_intercalate_of_mem {α : Type} {sep a : α} {x : List α} {xs : List (List α)}
    (hx : x ∈ xs) (ha : a ∈ x) : a ∈ [sep].intercalate xs := by
  cases xs with
  | nil => cases hx
  | cons y ys =>
    rw [intercalate_cons, List.mem_append, List.mem_flatMap]
    rcases List.mem_cons.mp hx with rfl | hx
    · exact .inl ha
    · exact .inr ⟨x, hx, List.mem_cons_of_mem sep ha⟩

theorem forall_mem_intercalate {α : Type} {P : α → Prop} {sep : α} {xs : List (List α)}
    (hsep : P sep) (h : ∀ x ∈ xs, ∀ a ∈ x, P a) : ∀ a ∈ [sep].intercalate xs, P a := by
  cases xs with
  | nil => exact nofun
  | cons y ys =>
    rw [List.forall_mem_cons] at h
    rw [intercalate_cons, List.forall_mem_append]
    refine ⟨h.1, fun a ha => ?_⟩
    obtain ⟨x, hx, hax⟩ := List.mem_flatMap.mp ha
    exact List.forall_mem_cons.mpr ⟨hsep, h.2 x hx⟩ a hax

theorem isWord_of_writes {w : List Char} {n : Numeral} (h : n.Writes w) :
    w ≠ [] ∧ ∀ c ∈ w, Lexer.endsWord c = false := by
  constructor
  · rintro rfl
    cases Numeral.ofChars?_eq_some_iff.mpr h
  · intro c hc
    rcases h.isNumeric c hc with hdigit | hmem
    · rw [Bool.eq_false_iff]
      intro hends
      have hnone : [' ', '\t', '\n', '\r', '"', '\x7b', '\x7d', '[', ']', ':', ','].all
          (!Char.isDigit ·) = true := by decide
      have hnot := List.all_eq_true.mp hnone c (mem_of_endsWord hends)
      rw [hdigit] at hnot
      cases hnot
    · have hall : ['-', '+', '.', 'e', 'E'].all (!Lexer.endsWord ·) = true := by decide
      simpa only [Bool.not_eq_true'] using List.all_eq_true.mp hall c hmem

theorem ofWord?_of_writes {w : List Char} {n : Numeral} (h : n.Writes w) :
    ofWord? w = some (.number n) := by
  have hread := Numeral.ofChars?_eq_some_iff.mpr h
  -- no literal is a number
  have hne {l : List Char} (hl : Numeral.ofChars? l = none) : w ≠ l := by
    rintro rfl
    rw [hl] at hread
    cases hread
  rw [ofWord?, if_neg (hne (by decide)), if_neg (hne (by decide)), if_neg (hne (by decide)), hread]
  rfl

theorem forms_of_ofWord? {w : List Char} {t : Tree} (h : ofWord? w = some t) :
    Forms [.word w] t := by
  unfold ofWord? at h
  split at h
  · rename_i hw
    cases h
    rw [hw]
    exact .null
  · split at h
    · rename_i hw
      cases h
      rw [hw]
      exact .bool true
    · split at h
      · rename_i hw
        cases h
        rw [hw]
        exact .bool false
      · rw [Option.map_eq_some_iff] at h
        obtain ⟨n, hn, rfl⟩ := h
        exact .number (Numeral.ofChars?_eq_some_iff.mp hn)

open Builder

section Building

/-- Reading the tokens completes the tree, whatever is open around it. -/
def Completes (ts : List Token) (t : Tree) : Prop :=
  ∀ stack, ts.foldlM feed (.value stack) = some (.complete stack t)

/-- The first item of an array is built like any value, since no value starts with a bracket that
closes. -/
theorem Forms.foldlM_firstItem {ts : List Token} {t : Tree} (h : Forms ts t) (stack : List Frame) :
    ts.foldlM feed (.firstItem stack) = ts.foldlM feed (.value (.array [] :: stack)) := by
  cases h <;> rfl

theorem foldlM_items {items : List (List Token × Tree)} (hitems : ∀ p ∈ items, Completes p.1 p.2)
    (stack : List Frame) (seen : List Tree) (t : Tree) :
    ((items.map (·.1)).flatMap (.comma :: ·) ++ [Token.closeBracket]).foldlM feed
        (.complete (.array seen :: stack) t) =
      some (.complete stack (.array ((t :: seen).reverse ++ items.map (·.2)))) := by
  induction items generalizing seen t with
  | nil =>
    rw [List.map_nil, List.map_nil, List.append_nil]
    rfl
  | cons p items ih =>
    obtain ⟨us, u⟩ := p
    have hu := hitems _ List.mem_cons_self (.array (t :: seen) :: stack)
    have hrest := ih (fun q hq => hitems q (List.mem_cons_of_mem _ hq)) (t :: seen) u
    rw [List.map_cons, List.flatMap_cons, List.append_assoc, List.cons_append]
    show (us ++ ((items.map (·.1)).flatMap (.comma :: ·) ++ [Token.closeBracket])).foldlM feed
      (.value (.array (t :: seen) :: stack)) = _
    rw [List.foldlM_append, hu]
    refine hrest.trans ?_
    rw [List.reverse_cons, List.append_assoc, List.singleton_append, List.map_cons]

theorem foldlM_members {parts : List Part} (hparts : ∀ p ∈ parts, Completes p.2.1 p.2.2)
    (stack : List Frame) (seen : List (List Piece × Tree)) (key : List Piece) (t : Tree) :
    ((parts.map Part.tokens).flatMap (.comma :: ·) ++ [Token.closeBrace]).foldlM feed
        (.complete (.object seen key :: stack) t) =
      some (.complete stack (.object (((key, t) :: seen).reverse ++ parts.map Part.member))) := by
  induction parts generalizing seen key t with
  | nil =>
    rw [List.map_nil, List.map_nil, List.append_nil]
    rfl
  | cons p parts ih =>
    obtain ⟨k, us, u⟩ := p
    have hu := hparts _ List.mem_cons_self (.object ((key, t) :: seen) k :: stack)
    have hrest := ih (fun q hq => hparts q (List.mem_cons_of_mem _ hq)) ((key, t) :: seen) k u
    rw [List.map_cons, List.flatMap_cons, List.append_assoc, Part.tokens, List.cons_append,
      List.cons_append, List.cons_append]
    show (us ++ ((parts.map Part.tokens).flatMap (.comma :: ·) ++ [Token.closeBrace])).foldlM feed
      (.value (.object ((key, t) :: seen) k :: stack)) = _
    rw [List.foldlM_append, hu]
    refine hrest.trans ?_
    rw [List.reverse_cons, List.append_assoc, List.singleton_append, List.map_cons, Part.member]

theorem Forms.completes {ts : List Token} {t : Tree} (h : Forms ts t) : Completes ts t := by
  induction h with
  | null => exact fun _ => rfl
  | bool b => cases b <;> exact fun _ => rfl
  | @number w n h =>
    intro stack
    show ((ofWord? w).map (Builder.complete stack)).bind some = _
    rw [ofWord?_of_writes h]
    rfl
  | string text => exact fun _ => rfl
  | @array items hforms ih =>
    intro stack
    cases items with
    | nil => rfl
    | cons p items =>
      obtain ⟨us, u⟩ := p
      have hu := ih _ List.mem_cons_self (.array [] :: stack)
      have hrest := foldlM_items (fun q hq => ih q (List.mem_cons_of_mem _ hq)) stack [] u
      rw [List.map_cons, intercalate_cons, List.append_assoc]
      show (us ++ ((items.map (·.1)).flatMap (.comma :: ·) ++ [Token.closeBracket])).foldlM feed
        (.firstItem stack) = _
      rw [List.foldlM_append, (hforms _ List.mem_cons_self).foldlM_firstItem, hu]
      exact hrest
  | @object parts _ ih =>
    intro stack
    cases parts with
    | nil => rfl
    | cons p parts =>
      obtain ⟨k, us, u⟩ := p
      have hu := ih _ List.mem_cons_self (.object [] k :: stack)
      have hrest := foldlM_members (fun q hq => ih q (List.mem_cons_of_mem _ hq)) stack [] k u
      rw [List.map_cons, intercalate_cons, List.append_assoc, Part.tokens, List.cons_append,
        List.cons_append]
      show (us ++ ((parts.map Part.tokens).flatMap (.comma :: ·) ++ [Token.closeBrace])).foldlM feed
        (.value (.object [] k :: stack)) = _
      rw [List.foldlM_append, hu]
      exact hrest

end Building

/-- The tokens that have opened the frames of a stack, with what stands in them so far. -/
inductive Opened : List Frame → List Token → Prop
  | nil : Opened [] []
  | array {stack : List Frame} {ts : List Token} (h : Opened stack ts)
    (items : List (List Token × Tree)) (hitems : ∀ p ∈ items, Forms p.1 p.2) :
    Opened (.array (items.map (·.2)).reverse :: stack)
      (ts ++ .openBracket :: (items.map (·.1)).flatMap (· ++ [.comma]))
  | object {stack : List Frame} {ts : List Token} (h : Opened stack ts) (parts : List Part)
    (hparts : ∀ p ∈ parts, Forms p.2.1 p.2.2) (key : List Piece) :
    Opened (.object (parts.map Part.member).reverse key :: stack)
      (ts ++ .openBrace :: ((parts.map Part.tokens).flatMap (· ++ [.comma]) ++ [.quoted key, .colon]))

/-- The tokens that lead to a state of the machine. -/
inductive Reached : Builder → List Token → Prop
  | value {stack : List Frame} {ts : List Token} (h : Opened stack ts) : Reached (.value stack) ts
  | firstItem {stack : List Frame} {ts : List Token} (h : Opened stack ts) :
    Reached (.firstItem stack) (ts ++ [.openBracket])
  | firstKey {stack : List Frame} {ts : List Token} (h : Opened stack ts) :
    Reached (.firstKey stack) (ts ++ [.openBrace])
  | nextKey {stack : List Frame} {ts : List Token} (h : Opened stack ts) (parts : List Part)
    (hparts : ∀ p ∈ parts, Forms p.2.1 p.2.2) :
    Reached (.nextKey stack (parts.map Part.member).reverse)
      (ts ++ .openBrace :: (parts.map Part.tokens).flatMap (· ++ [.comma]))
  | colon {stack : List Frame} {ts : List Token} (h : Opened stack ts) (parts : List Part)
    (hparts : ∀ p ∈ parts, Forms p.2.1 p.2.2) (key : List Piece) :
    Reached (.colon stack (parts.map Part.member).reverse key)
      (ts ++ .openBrace :: ((parts.map Part.tokens).flatMap (· ++ [.comma]) ++ [.quoted key]))
  | complete {stack : List Frame} {ts us : List Token} {t : Tree} (h : Opened stack ts)
    (hform : Forms us t) : Reached (.complete stack t) (ts ++ us)

theorem reached_of_opening {stack : List Frame} {ts : List Token} (h : Opened stack ts) {tok : Token}
    {b : Builder} (hb : opening stack tok = some b) : Reached b (ts ++ [tok]) := by
  cases tok with
  | openBrace =>
    cases hb
    exact .firstKey h
  | openBracket =>
    cases hb
    exact .firstItem h
  | quoted text =>
    cases hb
    exact .complete h (.string text)
  | word w =>
    obtain ⟨t, ht, rfl⟩ := Option.map_eq_some_iff.mp hb
    exact .complete h (forms_of_ofWord? ht)
  | _ => cases hb

section Closing
variable {stack : List Frame} {ts us : List Token} {t : Tree}

theorem reached_of_feed_item {items : List (List Token × Tree)} (h : Opened stack ts)
    (hitems : ∀ p ∈ items, Forms p.1 p.2) (hform : Forms us t) {tok : Token} {b : Builder}
    (hb : feed (.complete (.array (items.map (·.2)).reverse :: stack) t) tok = some b) :
    Reached b (ts ++ .openBracket :: ((items.map (·.1)).flatMap (· ++ [.comma]) ++ us) ++ [tok]) := by
  have hall : ∀ p ∈ items ++ [(us, t)], Forms p.1 p.2 := by
    simpa only [List.forall_mem_append, List.forall_mem_singleton] using ⟨hitems, hform⟩
  cases tok with
  | comma =>
    cases hb
    have hreached := Reached.value (Opened.array h _ hall)
    simpa only [List.map_append, List.map_singleton, List.reverse_append, List.reverse_singleton,
      List.flatMap_append, List.flatMap_singleton, List.append_assoc, List.cons_append,
      List.nil_append] using hreached
  | closeBracket =>
    cases hb
    have hreached := Reached.complete h (Forms.array _ hall)
    simpa only [List.map_append, List.map_singleton, intercalate_append_singleton,
      List.reverse_cons, List.reverse_reverse, List.append_assoc, List.cons_append] using hreached
  | _ => cases hb

theorem reached_of_feed_member {parts : List Part} (h : Opened stack ts)
    (hparts : ∀ p ∈ parts, Forms p.2.1 p.2.2) {key : List Piece} (hform : Forms us t) {tok : Token}
    {b : Builder}
    (hb : feed (.complete (.object (parts.map Part.member).reverse key :: stack) t) tok = some b) :
    Reached b (ts ++ .openBrace :: ((parts.map Part.tokens).flatMap (· ++ [.comma]) ++
      .quoted key :: .colon :: us) ++ [tok]) := by
  have hall : ∀ p ∈ parts ++ [(key, us, t)], Forms p.2.1 p.2.2 := by
    simpa only [List.forall_mem_append, List.forall_mem_singleton] using ⟨hparts, hform⟩
  cases tok with
  | comma =>
    cases hb
    have hreached := Reached.nextKey h _ hall
    simpa only [List.map_append, List.map_singleton, List.reverse_append, List.reverse_singleton,
      List.flatMap_append, List.flatMap_singleton, List.append_assoc, List.cons_append,
      List.nil_append, Part.tokens, Part.member] using hreached
  | closeBrace =>
    cases hb
    have hreached := Reached.complete h (Forms.object _ hall)
    simpa only [List.map_append, List.map_singleton, intercalate_append_singleton,
      List.reverse_cons, List.reverse_reverse, List.append_assoc, List.cons_append, Part.tokens,
      Part.member] using hreached
  | _ => cases hb

end Closing

theorem reached_of_feed {b b' : Builder} {ts : List Token} {tok : Token} (h : Reached b ts)
    (hb : b.feed tok = some b') : Reached b' (ts ++ [tok]) := by
  cases h with
  | value h => exact reached_of_opening h hb
  | @firstItem stack ts h =>
    have hopened : Opened (.array [] :: stack) (ts ++ [.openBracket]) := .array h [] nofun
    cases tok with
    | closeBracket =>
      cases hb
      rw [List.append_assoc]
      exact .complete h (.array [] nofun)
    | _ => exact reached_of_opening hopened hb
  | @firstKey stack ts h =>
    rw [List.append_assoc]
    cases tok with
    | closeBrace =>
      cases hb
      exact .complete h (.object [] nofun)
    | quoted key =>
      cases hb
      exact .colon h [] nofun key
    | _ => cases hb
  | @nextKey stack ts h parts hparts =>
    cases tok with
    | quoted key =>
      cases hb
      rw [List.append_assoc]
      exact .colon h parts hparts key
    | _ => cases hb
  | @colon stack ts h parts hparts key =>
    cases tok with
    | colon =>
      cases hb
      have hopened := Opened.object h parts hparts key
      simpa only [List.append_assoc, List.cons_append, List.nil_append] using Reached.value hopened
    | _ => cases hb
  | @complete stack ts us t h hform =>
    cases h with
    | nil => cases tok <;> cases hb
    | array h items hitems =>
      simpa only [List.append_assoc, List.cons_append] using reached_of_feed_item h hitems hform hb
    | object h parts hparts key =>
      simpa only [List.append_assoc, List.cons_append, List.nil_append] using
        reached_of_feed_member h hparts hform hb

theorem reached_of_foldlM {b b' : Builder} {ts us : List Token} (h : Reached b ts)
    (hb : us.foldlM feed b = some b') : Reached b' (ts ++ us) := by
  induction us generalizing b ts with
  | nil =>
    cases hb
    rw [List.append_nil]
    exact h
  | cons tok us ih =>
    rw [List.foldlM_cons, Option.bind_eq_bind, Option.bind_eq_some_iff] at hb
    obtain ⟨b₁, hb₁, hb⟩ := hb
    have hreached := ih (reached_of_feed h hb₁) hb
    rw [List.append_assoc, List.singleton_append] at hreached
    exact hreached

theorem ofTokens?_eq_some_iff {ts : List Token} {t : Tree} :
    ofTokens? ts = some t ↔ Forms ts t := by
  constructor
  · intro h
    rw [ofTokens?, Option.bind_eq_bind, Option.bind_eq_some_iff] at h
    obtain ⟨b, hb, hfinish⟩ := h
    have hreached := reached_of_foldlM (.value .nil) hb
    rw [List.nil_append] at hreached
    unfold finish at hfinish
    split at hfinish
    · cases hfinish
      cases hreached with
      | complete h hform =>
        cases h
        exact hform
    · cases hfinish
  · intro h
    rw [ofTokens?, h.completes []]
    rfl

/-- The texts of a tree are those from which it is read. -/
theorem ofString?_eq_some_iff {s : String} {t : Tree} :
    ofString? s = some t ↔ t.Writes s.toList := by
  rw [ofString?, Option.bind_eq_bind, Option.bind_eq_some_iff]
  constructor
  · rintro ⟨ts, hts, ht⟩
    exact ⟨ts, tokens?_eq_some_iff.mp hts, ofTokens?_eq_some_iff.mp ht⟩
  · rintro ⟨ts, hts, ht⟩
    exact ⟨ts, tokens?_eq_some_iff.mpr hts, ofTokens?_eq_some_iff.mpr ht⟩

/-- Some tokens that a text can have form the tree. -/
def Expressible (t : Tree) : Prop :=
  ∃ ts, Forms ts t ∧ ∀ tok ∈ ts, tok.Spellable

theorem Expressible.exists_writes {t : Tree} (h : t.Expressible) : ∃ cs, t.Writes cs := by
  obtain ⟨ts, hforms, hts⟩ := h
  obtain ⟨cs, hcs⟩ := exists_layout hts
  exact ⟨cs, ts, hcs, hforms⟩

theorem Expressible.array {items : List Tree} (h : ∀ t ∈ items, t.Expressible) :
    (Tree.array items).Expressible := by
  obtain ⟨f, hf⟩ := Classical.skolem.mp fun t : { t // t ∈ items } => h t.1 t.2
  have hforms := Forms.array (items.attach.map fun t => (f t, t.1))
    (List.forall_mem_map.mpr fun t _ => (hf t).1)
  rw [List.map_map, List.map_map, Function.comp_def, Function.comp_def,
    List.attach_map_subtype_val] at hforms
  have hcomma : Token.Spellable .comma := spellable_punctuation (c := ',') rfl
  have hitems := forall_mem_intercalate hcomma
    (List.forall_mem_map.mpr fun t _ => (hf t).2 : ∀ x ∈ items.attach.map f, _)
  refine ⟨_, hforms, List.forall_mem_cons.mpr ⟨spellable_punctuation (c := '[') rfl, ?_⟩⟩
  rw [List.forall_mem_append]
  exact ⟨hitems, List.forall_mem_singleton.mpr (spellable_punctuation (c := ']') rfl)⟩

theorem Expressible.object {members : List (List Piece × Tree)}
    (hkeys : ∀ m ∈ members, Token.Spellable (.quoted m.1)) (h : ∀ m ∈ members, m.2.Expressible) :
    (Tree.object members).Expressible := by
  obtain ⟨f, hf⟩ := Classical.skolem.mp fun m : { m // m ∈ members } => h m.1 m.2
  have hforms := Forms.object (members.attach.map fun m => (m.1.1, f m, m.1.2))
    (List.forall_mem_map.mpr fun m _ => (hf m).1)
  rw [List.map_map, List.map_map, Function.comp_def, Function.comp_def] at hforms
  have hmembers : (members.attach.map fun m => Part.member (m.1.1, f m, m.1.2)) = members :=
    List.attach_map_subtype_val members
  rw [hmembers] at hforms
  have hcomma : Token.Spellable .comma := spellable_punctuation (c := ',') rfl
  have hparts := forall_mem_intercalate hcomma (List.forall_mem_map.mpr fun m _ =>
    List.forall_mem_cons.mpr ⟨hkeys m.1 m.2, List.forall_mem_cons.mpr
      ⟨spellable_punctuation (c := ':') rfl, (hf m).2⟩⟩ :
        ∀ x ∈ members.attach.map fun m => Part.tokens (m.1.1, f m, m.1.2), _)
  refine ⟨_, hforms, List.forall_mem_cons.mpr ⟨spellable_punctuation (c := '\x7b') rfl, ?_⟩⟩
  rw [List.forall_mem_append]
  exact ⟨hparts, List.forall_mem_singleton.mpr (spellable_punctuation (c := '\x7d') rfl)⟩

end Tree

end VirtualModem.Json
