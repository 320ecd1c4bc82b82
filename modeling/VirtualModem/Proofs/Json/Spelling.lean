import VirtualModem.Json.Printer
/-!
# Texts and their tokens

The tokens of a text are those of its parts in order, as long as no part ends in the middle of a
token. A word has no end of its own: it is ended by what follows, and so is every text that ends in
a word.
-/

namespace VirtualModem.Json
set_option autoImplicit false

namespace Lexer

def after (m : Lexer) (done : List Token) : Lexer :=
  { m with done := m.done ++ done }

/-- The tokens of a text that is read on from the middle of another one. -/
def tokensFrom? (m : Lexer) (cs : List Char) : Option (List Token) := do
  (← cs.foldlM feed m).finish

theorem start_after (done done' : List Token) (c : Char) :
    start (done ++ done') c = (start done c).after done' := by
  unfold start
  split
  · rfl
  · split
    · rfl
    · split <;> rfl

theorem feed_after (m : Lexer) (done : List Token) (c : Char) :
    (m.after done).feed c = (m.feed c).map (·.after done) := by
  obtain ⟨mode, own⟩ := m
  cases mode with
  | between => exact congrArg some (start_after own done c)
  | inWord seen =>
    simp only [feed, after]
    split
    · exact congrArg some (start_after (.word seen.reverse :: own) done c)
    · rfl
  | inString seen =>
    simp only [feed, after]
    split
    · rfl
    · split
      · rfl
      · split <;> rfl
  | escape seen =>
    simp only [feed, after]
    split
    · rfl
    · cases escaped? c <;> rfl
  | hex seen missing code =>
    simp only [feed, after]
    cases hexDigit? c with
    | none => rfl
    | some d => cases missing <;> rfl

theorem finish_after (m : Lexer) (done : List Token) :
    (m.after done).finish = m.finish.map (done.reverse ++ ·) := by
  obtain ⟨mode, own⟩ := m
  cases mode with
  | between => simp [finish, after]
  | inWord seen => simp [finish, after]
  | _ => rfl

theorem tokensFrom?_cons (m : Lexer) (c : Char) (cs : List Char) :
    m.tokensFrom? (c :: cs) = (m.feed c).bind (·.tokensFrom? cs) := by
  simp only [tokensFrom?, List.foldlM_cons, Option.bind_eq_bind, Option.bind_assoc]

theorem tokensFrom?_append {m m' : Lexer} {cs : List Char} (h : cs.foldlM feed m = some m')
    (rest : List Char) : m.tokensFrom? (cs ++ rest) = m'.tokensFrom? rest := by
  rw [tokensFrom?, List.foldlM_append, h]
  rfl

theorem tokensFrom?_after (m : Lexer) (done : List Token) (cs : List Char) :
    (m.after done).tokensFrom? cs = (m.tokensFrom? cs).map (done.reverse ++ ·) := by
  induction cs generalizing m with
  | nil => exact finish_after m done
  | cons c cs ih =>
    rw [tokensFrom?_cons, tokensFrom?_cons, feed_after]
    cases m.feed c with
    | none => rfl
    | some m' => exact ih m'

theorem tokensFrom?_between (done : List Token) (cs : List Char) :
    tokensFrom? ⟨.between, done⟩ cs = (tokens? cs).map (done.reverse ++ ·) :=
  tokensFrom?_after {} done cs

end Lexer

open Lexer

/-- A text that starts like this ends a word before it. -/
def Ends (rest : List Char) : Prop :=
  ∀ c ∈ rest.head?, endsWord c = true

/-- A text with tokens that are finished at its end. -/
def Closed (cs : List Char) (ts : List Token) : Prop :=
  ∀ rest, tokens? (cs ++ rest) = (tokens? rest).map (ts ++ ·)

/-- A text with tokens of which the last one is finished by what follows. -/
def Spells (cs : List Char) (ts : List Token) : Prop :=
  ∀ rest, Ends rest → tokens? (cs ++ rest) = (tokens? rest).map (ts ++ ·)

/-- A text with finished tokens that also ends a word before it. -/
structure Follows (cs : List Char) (ts : List Token) : Prop where
  closed : Closed cs ts
  ends : ∃ c cs', cs = c :: cs' ∧ endsWord c = true

theorem ends_nil : Ends [] := nofun

theorem ends_cons {c : Char} (h : endsWord c = true) (cs : List Char) : Ends (c :: cs) := by
  intro d hd
  rw [List.head?_cons, Option.mem_some_iff] at hd
  rw [← hd]
  exact h

theorem Spells.tokens? {cs : List Char} {ts : List Token} (h : Spells cs ts) :
    tokens? cs = some ts := by
  have hnil := h [] ends_nil
  rw [List.append_nil] at hnil
  rw [hnil]
  exact congrArg some (List.append_nil ts)

section Composition
variable {cs ds : List Char} {ts us : List Token}

theorem map_append_map_append (ts us : List Token) (more : Option (List Token)) :
    (more.map (us ++ ·)).map (ts ++ ·) = more.map (ts ++ us ++ ·) := by
  cases more with
  | none => rfl
  | some vs => exact congrArg some (List.append_assoc ts us vs).symm

theorem Closed.spells (h : Closed cs ts) : Spells cs ts :=
  fun rest _ => h rest

theorem Closed.nil : Closed [] [] := by
  intro rest
  rw [List.nil_append]
  exact (Option.map_id' ..).symm

theorem Closed.append (h : Closed cs ts) (h' : Closed ds us) : Closed (cs ++ ds) (ts ++ us) := by
  intro rest
  rw [List.append_assoc, h, h', map_append_map_append]

theorem Spells.append_follows (h : Spells cs ts) (h' : Follows ds us) :
    Closed (cs ++ ds) (ts ++ us) := by
  intro rest
  obtain ⟨hclosed, d, ds', rfl, hd⟩ := h'
  have hrest : Ends (d :: ds' ++ rest) := ends_cons hd (ds' ++ rest)
  rw [List.append_assoc, h _ hrest, hclosed, map_append_map_append]

end Composition

theorem mem_of_endsWord {c : Char} (h : endsWord c = true) :
    c ∈ [' ', '\t', '\n', '\r', '"', '\x7b', '\x7d', '[', ']', ':', ','] := by
  simp only [endsWord, isSpace, Bool.or_eq_true, decide_eq_true_eq] at h
  rcases h with ((((rfl | rfl) | rfl) | rfl) | rfl) | h
  · decide
  · decide
  · decide
  · decide
  · decide
  · unfold punctuation? at h
    split at h
    all_goals first | decide | cases h

theorem tokens?_cons (c : Char) (cs : List Char) :
    tokens? (c :: cs) = (start [] c).tokensFrom? cs :=
  tokensFrom?_cons {} c cs

theorem Closed.punctuation {c : Char} {t : Token} (h : punctuation? c = some t) :
    Closed [c] [t] := by
  intro rest
  have hstart : start [] c = ⟨.between, [t]⟩ := by rw [start, h]
  rw [List.singleton_append, tokens?_cons, hstart, tokensFrom?_between]
  rfl

theorem Closed.space {c : Char} (h : isSpace c = true) : Closed [c] [] := by
  have hother : punctuation? c = none ∧ c ≠ '"' := by
    simp only [isSpace, Bool.or_eq_true, decide_eq_true_eq] at h
    rcases h with ((rfl | rfl) | rfl) | rfl
    all_goals decide
  intro rest
  have hstart : start [] c = {} := by rw [start, hother.1, if_neg hother.2, if_pos h]
  rw [List.singleton_append, tokens?_cons, hstart]
  exact Closed.nil rest

theorem Follows.punctuation {c : Char} {t : Token} {cs : List Char} {ts : List Token}
    (h : punctuation? c = some t) (h' : Closed cs ts) : Follows (c :: cs) (t :: ts) where
  closed := (Closed.punctuation h).append h'
  ends := by
    refine ⟨c, cs, rfl, ?_⟩
    rw [endsWord, h, Option.isSome_some, Bool.or_true]

theorem Closed.spaces {gap : List Char} (h : gap.all isSpace = true) : Closed gap [] := by
  induction gap with
  | nil => exact .nil
  | cons c gap ih =>
    rw [List.all_cons, Bool.and_eq_true] at h
    exact (Closed.space h.1).append (ih h.2)

theorem Follows.spaces {gap cs : List Char} {ts : List Token} (hgap : gap.all isSpace = true)
    (h : Follows cs ts) : Follows (gap ++ cs) ts where
  closed := (Closed.spaces hgap).append h.closed
  ends := by
    cases gap with
    | nil => exact h.ends
    | cons c gap =>
      rw [List.all_cons, Bool.and_eq_true] at hgap
      refine ⟨c, gap ++ cs, rfl, ?_⟩
      rw [endsWord, hgap.1, Bool.true_or, Bool.true_or]

theorem tokensFrom?_inWord (seen w rest : List Char) (hw : ∀ c ∈ w, endsWord c = false)
    (hrest : Ends rest) :
    tokensFrom? ⟨.inWord seen, []⟩ (w ++ rest) =
      (tokens? rest).map (.word (seen.reverse ++ w) :: ·) := by
  induction w generalizing seen with
  | nil =>
    cases rest with
    | nil =>
      show some [Token.word seen.reverse] = some [Token.word (seen.reverse ++ [])]
      rw [List.append_nil]
    | cons c rest =>
      have hc : endsWord c = true := hrest c (by rfl)
      have hfeed : feed ⟨.inWord seen, []⟩ c = some (start [.word seen.reverse] c) := by
        rw [feed]
        exact if_pos hc
      have hstart : start [.word seen.reverse] c = (start [] c).after [.word seen.reverse] :=
        start_after [] _ c
      rw [List.nil_append, List.append_nil, tokensFrom?_cons, hfeed, Option.bind_some, hstart,
        tokensFrom?_after]
      rfl
  | cons c w ih =>
    have hc : endsWord c = false := hw c List.mem_cons_self
    have hfeed : feed ⟨.inWord seen, []⟩ c = some ⟨.inWord (c :: seen), []⟩ := by
      rw [feed]
      exact if_neg (by rw [hc]; exact Bool.false_ne_true)
    rw [List.cons_append, tokensFrom?_cons, hfeed, Option.bind_some,
      ih (c :: seen) fun d hd => hw d (List.mem_cons_of_mem c hd), List.reverse_cons,
      List.append_assoc, List.singleton_append]

theorem Spells.word {w : List Char} (hne : w ≠ []) (h : w.all (!endsWord ·) = true) :
    Spells w [.word w] := by
  intro rest hrest
  have hw : ∀ c ∈ w, endsWord c = false := by
    simpa only [List.all_eq_true, Bool.not_eq_true'] using h
  cases w with
  | nil => exact absurd rfl hne
  | cons c w =>
    have hc : endsWord c = false := hw c List.mem_cons_self
    simp only [endsWord, Bool.or_eq_false_iff, decide_eq_false_iff_not,
      Option.isSome_eq_false_iff, Option.isNone_iff_eq_none] at hc
    obtain ⟨⟨hs, hq⟩, hp⟩ := hc
    have hstart : start [] c = ⟨.inWord [c], []⟩ := by
      rw [start, hp, if_neg hq, if_neg (by rw [hs]; exact Bool.false_ne_true)]
    have htail : ∀ d ∈ w, endsWord d = false := fun d hd => hw d (List.mem_cons_of_mem c hd)
    rw [List.cons_append, tokens?_cons, hstart, tokensFrom?_inWord [c] w rest htail hrest]
    rfl

def hexOnto? (code : Nat) (ds : List Char) : Option Nat :=
  ds.foldlM (fun code c => (hexDigit? c).map (code * 16 + ·)) code

/-- What stands between the quotation marks of a string: plain characters, one-letter escapes and
code units of four hexadecimal digits. -/
inductive Spelled : List Char → List Piece → Prop
  | nil : Spelled [] []
  | plain {c : Char} {cs : List Char} {ps : List Piece} (hquote : c ≠ '"') (hbackslash : c ≠ '\\')
    (hcontrol : ¬c < ' ') (h : Spelled cs ps) : Spelled (c :: cs) (.char c :: ps)
  | letter {c d : Char} {cs : List Char} {ps : List Piece} (hd : escaped? c = some d)
    (h : Spelled cs ps) : Spelled ('\\' :: c :: cs) (.char d :: ps)
  | unit {ds cs : List Char} {code : Nat} {ps : List Piece} (hlength : ds.length = 4)
    (hcode : hexOnto? 0 ds = some code) (h : Spelled cs ps) :
    Spelled ('\\' :: 'u' :: (ds ++ cs)) (.ofUnit code :: ps)

theorem foldlM_feed_hex (seen : List Piece) (missing code : Nat) (ds : List Char)
    (h : ds.length = missing + 1) :
    ds.foldlM feed ⟨.hex seen missing code, []⟩ =
      (hexOnto? code ds).map fun u => ⟨.inString (.ofUnit u :: seen), []⟩ := by
  induction ds generalizing missing code with
  | nil => cases h
  | cons d ds ih =>
    rw [List.foldlM_cons, hexOnto?, List.foldlM_cons, feed]
    cases hexDigit? d with
    | none => rfl
    | some n =>
      cases missing with
      | zero =>
        obtain rfl : ds = [] := List.eq_nil_of_length_eq_zero (by simpa using h)
        rfl
      | succ k => exact ih k (code * 16 + n) (by simpa using h)

theorem Spelled.foldlM_feed {cs : List Char} {ps : List Piece} (h : Spelled cs ps)
    (seen : List Piece) :
    cs.foldlM feed ⟨.inString seen, []⟩ = some ⟨.inString (ps.reverse ++ seen), []⟩ := by
  induction h generalizing seen with
  | nil => rfl
  | @plain c cs ps hquote hbackslash hcontrol _ ih =>
    have hfeed : feed ⟨.inString seen, []⟩ c = some ⟨.inString (.char c :: seen), []⟩ := by
      simp only [feed, if_neg hquote, if_neg hbackslash, if_neg hcontrol]
    rw [List.foldlM_cons, hfeed]
    refine (ih _).trans ?_
    rw [List.reverse_cons, List.append_assoc, List.singleton_append]
  | @letter c d cs ps hd _ ih =>
    have hu : c ≠ 'u' := by
      rintro rfl
      cases hd
    have hfeed : feed ⟨.escape seen, []⟩ c = some ⟨.inString (.char d :: seen), []⟩ := by
      simp only [feed, if_neg hu, hd, Option.map_some]
    show (c :: cs).foldlM feed ⟨.escape seen, []⟩ = _
    rw [List.foldlM_cons, hfeed]
    refine (ih _).trans ?_
    rw [List.reverse_cons, List.append_assoc, List.singleton_append]
  | @unit ds cs code ps hlength hcode _ ih =>
    show (ds ++ cs).foldlM feed ⟨.hex seen 3 0, []⟩ = _
    rw [List.foldlM_append, foldlM_feed_hex seen 3 0 ds hlength, hcode]
    refine (ih _).trans ?_
    rw [List.reverse_cons, List.append_assoc, List.singleton_append]

theorem Spelled.closed {cs : List Char} {ps : List Piece} (h : Spelled cs ps) :
    Closed ('"' :: (cs ++ ['"'])) [.quoted ps] := by
  intro rest
  have hstring : tokensFrom? ⟨.inString [], []⟩ (cs ++ '"' :: rest) =
      (tokens? rest).map ([.quoted ps] ++ ·) := by
    rw [tokensFrom?_append (h.foldlM_feed []), List.append_nil, tokensFrom?_cons]
    show tokensFrom? ⟨.between, [.quoted ps.reverse.reverse]⟩ rest = _
    rw [tokensFrom?_between, List.reverse_reverse]
    rfl
  rw [List.cons_append, List.append_assoc]
  exact hstring

theorem hexOnto?_hex4 : ∀ n < 32, hexOnto? 0 (hex4 n) = some n ∧ (hex4 n).length = 4 := by
  decide

theorem Spelled.escape {cs : List Char} {ps : List Piece} (h : Spelled cs ps) (c : Char) :
    Spelled (Json.escape c ++ cs) (.char c :: ps) := by
  unfold Json.escape
  split
  all_goals try exact .letter rfl h
  rename_i hquote hbackslash _ _ _ _ _
  split
  · rename_i hc
    have hn : c.toNat < 32 := hc
    obtain ⟨hread, hlength⟩ := hexOnto?_hex4 c.toNat hn
    have hunit : Piece.ofUnit c.toNat = .char c := by
      rw [Piece.ofUnit, if_pos (Or.inl (by rw [leadBase]; omega)), Char.ofNat_toNat]
    rw [← hunit]
    exact .unit hlength hread h
  · rename_i hc
    exact .plain hquote hbackslash hc h

theorem Closed.quote (s : String) : Closed (quote (pieces s)) [.quoted (pieces s)] := by
  have hspelled (cs : List Char) : Spelled (cs.flatMap escape) (cs.map .char) := by
    induction cs with
    | nil => exact .nil
    | cons c cs ih => exact ih.escape c
  have hchars : (pieces s).flatMap Piece.toChars = s.toList.flatMap escape := by
    rw [pieces, List.flatMap_map]
    rfl
  rw [Json.quote, hchars]
  exact (hspelled s.toList).closed

end VirtualModem.Json
