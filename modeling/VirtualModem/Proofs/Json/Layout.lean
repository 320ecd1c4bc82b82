import VirtualModem.Proofs.Json.Spelling
/-!
# The layout of texts

A text is laid out from its tokens with any white space between them; only a word needs something
after it that ends it. The machine that cuts a text into tokens accepts just the texts that are laid
out so. What it still demands of the text depends on where it stands, so the other direction says
for each of its modes what the rest of an accepted text consists of.
-/

namespace VirtualModem.Json
set_option autoImplicit false

/-- How a text is laid out from tokens. -/
inductive Layout : List Char → List Token → Prop
  | nil : Layout [] []
  | space {c : Char} {cs : List Char} {ts : List Token} (hc : isSpace c = true)
    (h : Layout cs ts) : Layout (c :: cs) ts
  | punctuation {c : Char} {t : Token} {cs : List Char} {ts : List Token}
    (ht : punctuation? c = some t) (h : Layout cs ts) : Layout (c :: cs) (t :: ts)
  | quoted {inner cs : List Char} {ps : List Piece} {ts : List Token} (hs : Spelled inner ps)
    (h : Layout cs ts) : Layout ('"' :: (inner ++ '"' :: cs)) (.quoted ps :: ts)
  | word {w cs : List Char} {ts : List Token} (hne : w ≠ []) (hw : ∀ c ∈ w, Lexer.endsWord c = false)
    (hends : Ends cs) (h : Layout cs ts) : Layout (w ++ cs) (.word w :: ts)

theorem Layout.tokens? {cs : List Char} {ts : List Token} (h : Layout cs ts) :
    tokens? cs = some ts := by
  induction h with
  | nil => rfl
  | @space c cs ts hc _ ih =>
    refine (Closed.space hc cs).trans ?_
    rw [ih]
    rfl
  | @punctuation c t cs ts ht _ ih =>
    refine (Closed.punctuation ht cs).trans ?_
    rw [ih]
    rfl
  | @quoted inner cs ps ts hs _ ih =>
    have hstring := hs.closed cs
    rw [List.cons_append, List.append_assoc, List.singleton_append, ih] at hstring
    exact hstring
  | @word w cs ts hne hw hends _ ih =>
    have hall : w.all (!Lexer.endsWord ·) = true := by
      simpa only [List.all_eq_true, Bool.not_eq_true'] using hw
    refine (Spells.word hne hall cs hends).trans ?_
    rw [ih]
    rfl

namespace Lexer

/-- What is left of a text inside a string, with the pieces before it last first. -/
def RestOfString (seen : List Piece) (cs : List Char) (ts : List Token) : Prop :=
  ∃ inner ps rest us, Spelled inner ps ∧ Layout rest us ∧
    cs = inner ++ '"' :: rest ∧ ts = .quoted (seen.reverse ++ ps) :: us

def RestOfWord (seen : List Char) (cs : List Char) (ts : List Token) : Prop :=
  ∃ w rest us, (∀ c ∈ w, endsWord c = false) ∧ Ends rest ∧ Layout rest us ∧
    cs = w ++ rest ∧ ts = .word (seen.reverse ++ w) :: us

/-- What is left of a text in a mode, with the tokens that come of it. -/
def Mode.Rest : Mode → List Char → List Token → Prop
  | .between, cs, ts => Layout cs ts
  | .inWord seen, cs, ts => RestOfWord seen cs ts
  | .inString seen, cs, ts => RestOfString seen cs ts
  | .escape seen, cs, ts => RestOfString seen ('\\' :: cs) ts
  | .hex seen missing code, cs, ts =>
    ∃ ds rest u, ds.length = missing + 1 ∧ hexOnto? code ds = some u ∧
      cs = ds ++ rest ∧ RestOfString (.ofUnit u :: seen) rest ts

theorem RestOfString.piece {seen : List Piece} {p : Piece} {cs : List Char} {ts : List Token}
    (pre : List Char) (hpre : ∀ inner ps, Spelled inner ps → Spelled (pre ++ inner) (p :: ps))
    (h : RestOfString (p :: seen) cs ts) : RestOfString seen (pre ++ cs) ts := by
  obtain ⟨inner, ps, rest, us, hs, hl, rfl, rfl⟩ := h
  refine ⟨pre ++ inner, p :: ps, rest, us, hpre inner ps hs, hl, ?_, ?_⟩
  · rw [List.append_assoc]
  · rw [List.reverse_cons, List.append_assoc, List.singleton_append]

theorem RestOfWord.layout {c : Char} {cs : List Char} {ts : List Token} (hc : endsWord c = false)
    (h : RestOfWord [c] cs ts) : Layout (c :: cs) ts := by
  obtain ⟨w, rest, us, hw, hends, hl, rfl, rfl⟩ := h
  have hall : ∀ d ∈ c :: w, endsWord d = false := List.forall_mem_cons.mpr ⟨hc, hw⟩
  exact .word (List.cons_ne_nil c w) hall hends hl

section Step
variable {cs : List Char} (ih : ∀ mode ts, tokensFrom? ⟨mode, []⟩ cs = some ts → mode.Rest cs ts)
include ih

theorem layout_of_start {c : Char} {ts : List Token} (h : tokensFrom? (start [] c) cs = some ts) :
    Layout (c :: cs) ts := by
  unfold start at h
  split at h
  · rename_i t ht
    rw [tokensFrom?_between, Option.map_eq_some_iff] at h
    obtain ⟨us, hus, rfl⟩ := h
    exact .punctuation ht (ih .between us hus)
  · rename_i hp
    split at h
    · rename_i hq
      obtain ⟨inner, ps, rest, us, hs, hl, rfl, rfl⟩ := ih (.inString []) ts h
      rw [hq]
      exact .quoted hs hl
    · rename_i hq
      split at h
      · rename_i hs
        exact .space hs (ih .between ts h)
      · rename_i hs
        have hc : endsWord c = false := by
          simp [endsWord, hp, hq, hs]
        exact (ih (.inWord [c]) ts h).layout hc

theorem rest_of_inWord {seen : List Char} {c : Char} {m : Lexer} {ts : List Token}
    (hm : feed ⟨.inWord seen, []⟩ c = some m) (h : m.tokensFrom? cs = some ts) :
    RestOfWord seen (c :: cs) ts := by
  rw [feed] at hm
  dsimp only at hm
  split at hm
  · rename_i hc
    cases hm
    have hstart : start [.word seen.reverse] c = (start [] c).after [.word seen.reverse] :=
      start_after [] _ c
    rw [hstart, tokensFrom?_after, Option.map_eq_some_iff] at h
    obtain ⟨us, hus, rfl⟩ := h
    refine ⟨[], c :: cs, us, List.forall_mem_nil _, ends_cons hc cs, layout_of_start ih hus, rfl, ?_⟩
    rw [List.append_nil]
    rfl
  · rename_i hc
    cases hm
    obtain ⟨w, rest, us, hw, hends, hl, rfl, rfl⟩ := ih (.inWord (c :: seen)) ts h
    have hall : ∀ d ∈ c :: w, endsWord d = false :=
      List.forall_mem_cons.mpr ⟨Bool.eq_false_iff.mpr hc, hw⟩
    refine ⟨c :: w, rest, us, hall, hends, hl, rfl, ?_⟩
    rw [List.reverse_cons, List.append_assoc, List.singleton_append]

theorem rest_of_inString {seen : List Piece} {c : Char} {m : Lexer} {ts : List Token}
    (hm : feed ⟨.inString seen, []⟩ c = some m) (h : m.tokensFrom? cs = some ts) :
    RestOfString seen (c :: cs) ts := by
  rw [feed] at hm
  dsimp only at hm
  split at hm
  · rename_i hc
    cases hm
    rw [tokensFrom?_between, Option.map_eq_some_iff] at h
    obtain ⟨us, hus, rfl⟩ := h
    refine ⟨[], [], cs, us, .nil, ih .between us hus, ?_, ?_⟩
    · rw [hc, List.nil_append]
    · rw [List.append_nil]
      rfl
  · rename_i hquote
    split at hm
    · rename_i hc
      cases hm
      rw [hc]
      exact ih (.escape seen) ts h
    · rename_i hbackslash
      split at hm
      · cases hm
      · rename_i hcontrol
        cases hm
        exact RestOfString.piece [c] (fun _ _ hs => .plain hquote hbackslash hcontrol hs)
          (ih (.inString (.char c :: seen)) ts h)

theorem rest_of_escape {seen : List Piece} {c : Char} {m : Lexer} {ts : List Token}
    (hm : feed ⟨.escape seen, []⟩ c = some m) (h : m.tokensFrom? cs = some ts) :
    RestOfString seen ('\\' :: c :: cs) ts := by
  rw [feed] at hm
  dsimp only at hm
  split at hm
  · rename_i hc
    cases hm
    obtain ⟨ds, rest, u, hlength, hu, rfl, hrest⟩ := ih (.hex seen 3 0) ts h
    rw [hc]
    exact RestOfString.piece ('\\' :: 'u' :: ds) (fun _ _ hs => .unit hlength hu hs) hrest
  · rw [Option.map_eq_some_iff] at hm
    obtain ⟨d, hd, rfl⟩ := hm
    exact RestOfString.piece ['\\', c] (fun _ _ hs => .letter hd hs)
      (ih (.inString (.char d :: seen)) ts h)

theorem rest_of_hex {seen : List Piece} {missing code : Nat} {c : Char} {m : Lexer}
    {ts : List Token} (hm : feed ⟨.hex seen missing code, []⟩ c = some m)
    (h : m.tokensFrom? cs = some ts) : (Mode.hex seen missing code).Rest (c :: cs) ts := by
  rw [feed] at hm
  dsimp only at hm
  rw [Option.map_eq_some_iff] at hm
  obtain ⟨d, hd, rfl⟩ := hm
  cases missing with
  | zero =>
    refine ⟨[c], cs, code * 16 + d, rfl, ?_, rfl, ih (.inString _) ts h⟩
    rw [hexOnto?, List.foldlM_cons, hd]
    rfl
  | succ k =>
    obtain ⟨ds, rest, u, hlength, hu, rfl, hrest⟩ := ih (.hex seen k (code * 16 + d)) ts h
    refine ⟨c :: ds, rest, u, by rw [List.length_cons, hlength], ?_, rfl, hrest⟩
    rw [hexOnto?, List.foldlM_cons, hd]
    exact hu

/-- Reading one character leaves the rest that the mode demands. -/
theorem rest_of_feed {mode : Mode} {c : Char} {ts : List Token}
    (h : tokensFrom? ⟨mode, []⟩ (c :: cs) = some ts) : mode.Rest (c :: cs) ts := by
  rw [tokensFrom?_cons, Option.bind_eq_some_iff] at h
  obtain ⟨m, hm, h⟩ := h
  cases mode with
  | between =>
    cases hm
    exact layout_of_start ih h
  | inWord seen => exact rest_of_inWord ih hm h
  | inString seen => exact rest_of_inString ih hm h
  | escape seen => exact rest_of_escape ih hm h
  | hex seen missing code => exact rest_of_hex ih hm h

end Step

theorem rest_of_tokensFrom? (mode : Mode) {cs : List Char} {ts : List Token}
    (h : tokensFrom? ⟨mode, []⟩ cs = some ts) : mode.Rest cs ts := by
  induction cs generalizing mode ts with
  | nil =>
    cases mode with
    | between =>
      cases h
      exact .nil
    | inWord seen =>
      cases h
      refine ⟨[], [], [], List.forall_mem_nil _, ends_nil, .nil, rfl, ?_⟩
      rw [List.append_nil]
      rfl
    | _ => cases h
  | cons c cs ih => exact rest_of_feed (fun mode _ => ih mode) h

end Lexer

theorem tokens?_eq_some_iff {cs : List Char} {ts : List Token} :
    tokens? cs = some ts ↔ Layout cs ts :=
  ⟨Lexer.rest_of_tokensFrom? .between, Layout.tokens?⟩

/-- A text can go on with the token and a blank. -/
def Token.Spellable (t : Token) : Prop :=
  ∃ cs, ∀ rest us, Layout rest us → Layout (cs ++ ' ' :: rest) (t :: us)

theorem Layout.blank {cs : List Char} {ts : List Token} (h : Layout cs ts) :
    Layout (' ' :: cs) ts :=
  .space (by decide) h

theorem spellable_punctuation {c : Char} {t : Token} (h : punctuation? c = some t) : t.Spellable :=
  ⟨[c], fun _ _ hrest => .punctuation h hrest.blank⟩

theorem Layout.spellable {cs : List Char} {ts : List Token} (h : Layout cs ts) :
    ∀ t ∈ ts, t.Spellable := by
  induction h with
  | nil => exact nofun
  | space _ _ ih => exact ih
  | punctuation ht _ ih => exact List.forall_mem_cons.mpr ⟨spellable_punctuation ht, ih⟩
  | @quoted inner cs ps ts hs _ ih =>
    refine List.forall_mem_cons.mpr ⟨⟨'"' :: (inner ++ ['"']), fun rest us hrest => ?_⟩, ih⟩
    rw [List.cons_append, List.append_assoc]
    exact .quoted hs hrest.blank
  | @word w cs ts hne hw _ _ ih =>
    refine List.forall_mem_cons.mpr ⟨⟨w, fun rest us hrest => ?_⟩, ih⟩
    exact .word hne hw (ends_cons (by decide) rest) hrest.blank

theorem exists_layout {ts : List Token} (h : ∀ t ∈ ts, t.Spellable) : ∃ cs, Layout cs ts := by
  induction ts with
  | nil => exact ⟨[], .nil⟩
  | cons t ts ih =>
    obtain ⟨⟨cs, hcs⟩, hts⟩ := List.forall_mem_cons.mp h
    obtain ⟨rest, hrest⟩ := ih hts
    exact ⟨cs ++ ' ' :: rest, hcs rest ts hrest⟩

end VirtualModem.Json
