import VirtualModem.Proofs.Json.Shape
/-!
# Forms with a shape

The form of a type has a shape if a value is read from just the trees that have the shape, as the
value for which they mean what is written. Integers, names, texts, lists and records have shapes by
one lemma each.
-/

namespace VirtualModem.Json
set_option autoImplicit false

theorem Numeral.isInteger_ofInt (z : Int) : (ofInt z).IsInteger z :=
  integer?_eq_some_iff.mp (integer?_ofInt z)

namespace Tree

theorem integerIn?_eq_some_iff {low high z : Int} {t : Tree} :
    t.integerIn? low high = some z ↔ ∃ n, t = .number n ∧ n.IsInteger z ∧ low ≤ z ∧ z ≤ high := by
  constructor
  · intro h
    unfold integerIn? at h
    split at h
    · rename_i n
      split at h
      · rename_i hn
        rw [Option.ite_none_right_eq_some, Option.some.injEq] at h
        obtain ⟨hrange, rfl⟩ := h
        exact ⟨n, rfl, Numeral.integer?_eq_some_iff.mp hn, hrange⟩
      · cases h
    · cases h
  · rintro ⟨n, rfl, hn, hrange⟩
    rw [integerIn?, Numeral.integer?_eq_some_iff.mpr hn]
    exact if_pos hrange

theorem filter_fst_eq_singleton {ms : List (String × Tree)} (h : (ms.map (·.1)).Nodup)
    {m : String × Tree} (hm : m ∈ ms) : ms.filter (·.1 = m.1) = [m] := by
  induction ms with
  | nil => cases hm
  | cons n ms ih =>
    rw [List.map_cons, List.nodup_cons] at h
    obtain ⟨hnew, h⟩ := h
    rw [List.filter_cons]
    rcases List.mem_cons.mp hm with rfl | hm
    · have hothers : ms.filter (·.1 = m.1) = [] := by
        rw [List.filter_eq_nil_iff]
        intro p hp hsame
        rw [← of_decide_eq_true hsame] at hnew
        exact hnew (List.mem_map_of_mem hp)
      rw [if_pos (decide_eq_true rfl), hothers]
    · have hother : n.1 ≠ m.1 := by
        intro hsame
        rw [hsame] at hnew
        exact hnew (List.mem_map_of_mem hm)
      rw [if_neg (by rwa [decide_eq_true_eq]), ih h hm]

theorem under_pieces (name : String) (ms : List (String × Tree)) :
    under name (ms.map fun (k, t) => (pieces k, t)) = (ms.filter (·.1 = name)).map (·.2) := by
  rw [under, List.filter_map, List.map_map]
  simp [Function.comp_def, string?_pieces]

theorem fields_ofFields {ms : List (String × Tree)} (h : (ms.map (·.1)).Nodup) :
    (ofFields ms).Fields (ms.map (·.1)) (ms.map (·.2)) := by
  refine .object ?_ ?_
  · intro m hm
    obtain ⟨f, -, rfl⟩ := List.mem_map.mp hm
    rw [string?_pieces]
    rfl
  · rw [List.forall₂_map_left_iff, List.forall₂_map_right_iff, List.forall₂_same]
    intro m hm
    rw [under_pieces, filter_fst_eq_singleton h hm, List.map_singleton]

end Tree

namespace Shape

def uint8 : Shape := .integer 0 255
def uint16 : Shape := .integer 0 65535
def uint32 : Shape := .integer 0 4294967295
def int32 : Shape := .integer (-2147483648) 2147483647

end Shape

namespace Form
open Shape

/-- Reading undoes writing, and a value is read from just the trees that have the shape, as the
value for which they mean what is written. -/
structure HasShape (α : Type) [Form α] (shape : Shape) : Prop where
  read (a : α) : ofTree? (toTree a) = some a
  means {t u : Tree} : (∃ a : α, ofTree? t = some a ∧ toTree a = u) ↔ shape.Means t u

theorem HasShape.integer {α : Type} [Form α] {low high : Int} {toInt : α → Int} {ofInt : Int → α}
    (hto : ∀ a, toTree a = Tree.ofInt (toInt a))
    (hof : ∀ t, ofTree? t = (t.integerIn? low high).map ofInt)
    (hrange : ∀ a, low ≤ toInt a ∧ toInt a ≤ high) (hleft : ∀ a, ofInt (toInt a) = a)
    (hright : ∀ z, low ≤ z → z ≤ high → toInt (ofInt z) = z) :
    HasShape α (.integer low high) where
  read a := by
    have hin : (Tree.ofInt (toInt a)).integerIn? low high = some (toInt a) :=
      Tree.integerIn?_eq_some_iff.mpr ⟨_, rfl, Numeral.isInteger_ofInt _, hrange a⟩
    rw [hof, hto, hin, Option.map_some, hleft]
  means {t u} := by
    simp only [hof, hto, Option.map_eq_some_iff, Tree.integerIn?_eq_some_iff]
    constructor
    · rintro ⟨_, ⟨z, ⟨n, rfl, hn, hlow, hhigh⟩, rfl⟩, rfl⟩
      exact ⟨n, z, rfl, hn, hlow, hhigh, by rw [hright z hlow hhigh]⟩
    · rintro ⟨n, z, rfl, hn, hlow, hhigh, rfl⟩
      exact ⟨_, ⟨z, ⟨n, rfl, hn, hlow, hhigh⟩, rfl⟩, by rw [hright z hlow hhigh]⟩

theorem HasShape.nat {α : Type} [Form α] {bound : Nat} {toNat : α → Nat} {ofNat : Nat → α}
    (hto : ∀ a, toTree a = Tree.ofInt (toNat a))
    (hof : ∀ t, ofTree? t = (t.natBelow? bound).map ofNat) (hlt : ∀ a, toNat a < bound)
    (hleft : ∀ a, ofNat (toNat a) = a) (hright : ∀ n < bound, toNat (ofNat n) = n) :
    HasShape α (.integer 0 (bound - 1)) := by
  refine .integer hto (fun t => (hof t).trans (Option.map_map ..)) (fun a => ?_) hleft
    fun z hlow hhigh => ?_
  · have := hlt a
    omega
  · have := hright z.toNat (by omega)
    show (toNat (ofNat z.toNat) : Int) = z
    omega

theorem hasShape_uint8 : HasShape UInt8 .uint8 :=
  .nat (fun _ => rfl) (fun _ => rfl) UInt8.toNat_lt_size (fun _ => UInt8.ofNat_toNat)
    fun _ => UInt8.toNat_ofNat_of_lt

theorem hasShape_uint16 : HasShape UInt16 .uint16 :=
  .nat (fun _ => rfl) (fun _ => rfl) UInt16.toNat_lt_size (fun _ => UInt16.ofNat_toNat)
    fun _ => UInt16.toNat_ofNat_of_lt

theorem hasShape_uint32 : HasShape UInt32 .uint32 :=
  .nat (fun _ => rfl) (fun _ => rfl) UInt32.toNat_lt_size (fun _ => UInt32.ofNat_toNat)
    fun _ => UInt32.toNat_ofNat_of_lt

theorem hasShape_int32 : HasShape Int32 .int32 :=
  .integer (fun _ => rfl) (fun _ => rfl) (fun n => ⟨n.minValue_le_toInt, n.toInt_le⟩)
    Int32.ofInt_toInt fun _ hlow hhigh => Int32.toInt_ofInt_of_le hlow (Int.lt_add_one_of_le hhigh)

theorem hasShape_string : HasShape String .text where
  read := string?_pieces
  means {t u} := by
    constructor
    · rintro ⟨s, hs, rfl⟩
      cases t with
      | string text => exact ⟨text, s, rfl, hs, rfl⟩
      | _ => cases hs
    · rintro ⟨text, s, rfl, hs, rfl⟩
      exact ⟨s, hs, rfl⟩

theorem HasShape.named {α : Type} [Named α] [Form α] {names : List String}
    (hto : ∀ a : α, toTree a = .ofString (Named.name a))
    (hof : ∀ t, (ofTree? t : Option α) = t.name?.bind Named.ofName?)
    (hnames : (Named.all : List α).map Named.name = names)
    (hread : ∀ a : α, Named.ofName? (Named.name a) = some a) : HasShape α (.named names) where
  read a := by
    have hname : (Tree.ofString (Named.name a)).name? = some (Named.name a) :=
      Tree.name?_eq_some_iff.mpr (.string (string?_pieces (Named.name a)))
    rw [hof, hto, hname, Option.bind_some, hread]
  means {t u} := by
    simp only [hof, hto, Option.bind_eq_some_iff, Tree.name?_eq_some_iff]
    constructor
    · rintro ⟨a, ⟨s, hs, ha⟩, rfl⟩
      obtain rfl : Named.name a = s := by simpa using List.find?_some ha
      refine ⟨Named.name a, ?_, hs, rfl⟩
      rw [← hnames]
      exact List.mem_map_of_mem (List.mem_of_find?_eq_some ha)
    · rintro ⟨s, hs, ht, rfl⟩
      rw [← hnames, List.mem_map] at hs
      obtain ⟨a, -, rfl⟩ := hs
      exact ⟨a, ⟨_, ht, hread a⟩, rfl⟩

theorem HasShape.exists_items {α : Type} [Form α] {shape : Shape} (h : HasShape α shape)
    {ts us : List Tree} (hitems : List.Forall₂ shape.Means ts us) :
    ∃ as : List α, List.Forall₂ (fun t a => ofTree? t = some a) ts as ∧ as.map toTree = us := by
  induction hitems with
  | nil => exact ⟨[], .nil, rfl⟩
  | cons ht _ ih =>
    obtain ⟨a, ha, rfl⟩ := h.means.mpr ht
    obtain ⟨as, has, rfl⟩ := ih
    exact ⟨a :: as, .cons ha has, rfl⟩

theorem HasShape.list {α : Type} [Form α] {shape : Shape} (h : HasShape α shape) :
    HasShape (List α) (.list shape) where
  read as := by
    refine mapM_eq_some_iff.mpr ?_
    rw [List.forall₂_map_left_iff, List.forall₂_same]
    exact fun a _ => h.read a
  means {t u} := by
    constructor
    · rintro ⟨as, has, rfl⟩
      cases t with
      | array ts =>
        refine ⟨ts, _, rfl, ?_, rfl⟩
        rw [List.forall₂_map_right_iff]
        exact (mapM_eq_some_iff.mp has).imp fun t a ha => h.means.mp ⟨a, ha, rfl⟩
      | _ => cases has
    · rintro ⟨ts, us, rfl, hitems, rfl⟩
      obtain ⟨as, has, rfl⟩ := h.exists_items hitems
      exact ⟨as, mapM_eq_some_iff.mpr has, rfl⟩

theorem HasShape.wrap {α β : Type} [Form α] [Form β] {shape : Shape} (h : HasShape α shape)
    (e : α ≃ β) (hto : ∀ a, toTree (e a) = toTree a)
    (hof : ∀ t, (ofTree? t : Option β) = (ofTree? t).map e) : HasShape β shape where
  read b := by
    obtain ⟨a, rfl⟩ := e.surjective b
    rw [hof, hto, h.read, Option.map_some]
  means {t u} := by
    simp only [hof, Option.map_eq_some_iff, ← h.means]
    constructor
    · rintro ⟨_, ⟨a, ha, rfl⟩, rfl⟩
      exact ⟨a, ha, (hto a).symm⟩
    · rintro ⟨a, ha, rfl⟩
      exact ⟨e a, ⟨a, ha, rfl⟩, hto a⟩

/-- The values of fields one after the other, with their trees. -/
structure Row (fields : List (String × Shape)) (γ : Type) where
  read? : List Tree → Option γ
  write : γ → List (String × Tree)
  names (c : γ) : (write c).map (·.1) = fields.map (·.1)
  read_write (c : γ) : read? ((write c).map (·.2)) = some c
  means {ts : List Tree} {ms : List (String × Tree)} :
    (∃ c, read? ts = some c ∧ write c = ms) ↔ MeansEach fields ts ms

def Row.nil : Row [] Unit where
  read?
    | [] => some ()
    | _ => none
  write _ := []
  names _ := rfl
  read_write _ := rfl
  means {ts ms} := by cases ts <;> cases ms <;> simp [MeansEach]

section Row
variable {α γ : Type} [Form α] {shape : Shape} {fields : List (String × Shape)}

def Row.next? (read? : List Tree → Option γ) : List Tree → Option (α × γ)
  | t :: ts => (ofTree? t).bind fun a => (read? ts).map (a, ·)
  | [] => none

theorem Row.next?_eq_some_iff {read? : List Tree → Option γ} {ts : List Tree} {a : α} {c : γ} :
    Row.next? read? ts = some (a, c) ↔
      ∃ t ts', ts = t :: ts' ∧ ofTree? t = some a ∧ read? ts' = some c := by
  cases ts with
  | nil => exact ⟨nofun, fun ⟨_, _, h, _⟩ => nomatch h⟩
  | cons t ts =>
    simp only [Row.next?, Option.bind_eq_some_iff, Option.map_eq_some_iff, Prod.mk.injEq,
      List.cons.injEq]
    constructor
    · rintro ⟨a', ha, c', hc, rfl, rfl⟩
      exact ⟨t, ts, ⟨rfl, rfl⟩, ha, hc⟩
    · rintro ⟨_, _, ⟨rfl, rfl⟩, ha, hc⟩
      exact ⟨a, ha, c, hc, rfl, rfl⟩

def Row.cons (name : String) (h : HasShape α shape) (row : Row fields γ) :
    Row ((name, shape) :: fields) (α × γ) where
  read? := Row.next? row.read?
  write c := (name, toTree c.1) :: row.write c.2
  names c := by rw [List.map_cons, row.names, List.map_cons]
  read_write c := Row.next?_eq_some_iff.mpr ⟨_, _, rfl, h.read c.1, row.read_write c.2⟩
  means {ts ms} := by
    constructor
    · rintro ⟨⟨a, c⟩, hread, rfl⟩
      obtain ⟨t, ts, rfl, ha, hc⟩ := Row.next?_eq_some_iff.mp hread
      exact ⟨rfl, h.means.mp ⟨a, ha, rfl⟩, row.means.mp ⟨c, hc, rfl⟩⟩
    · intro heach
      match ts, ms, heach with
      | t :: ts, (_, u) :: ms, ⟨rfl, ht, hrest⟩ =>
        obtain ⟨a, ha, rfl⟩ := h.means.mpr ht
        obtain ⟨c, hc, rfl⟩ := row.means.mpr hrest
        exact ⟨(a, c), Row.next?_eq_some_iff.mpr ⟨t, ts, rfl, ha, hc⟩, rfl⟩

theorem HasShape.record (row : Row fields γ) (e : γ ≃ α) {of : List Tree → Option α}
    (hof : ∀ t, ofTree? t = (t.fields? (fields.map (·.1))).bind of)
    (hrow : ∀ ts, ts.length = fields.length → of ts = (row.read? ts).map e)
    (hto : ∀ c, toTree (e c) = .ofFields (row.write c))
    (hdistinct : (fields.map (·.1)).Nodup) : HasShape α (.record fields) where
  read a := by
    obtain ⟨c, rfl⟩ := e.surjective a
    have hfields := Tree.fields_ofFields (row.names c ▸ hdistinct)
    rw [row.names c] at hfields
    rw [hof, hto, Tree.fields?_eq_some_iff.mpr hfields, Option.bind_some,
      hrow _ (hfields.length_eq.trans (List.length_map _)), row.read_write]
    rfl
  means {t u} := by
    constructor
    · rintro ⟨a, ha, rfl⟩
      rw [hof, Option.bind_eq_some_iff] at ha
      obtain ⟨ts, hts, ha⟩ := ha
      rw [Tree.fields?_eq_some_iff] at hts
      rw [hrow ts (hts.length_eq.trans (List.length_map _)), Option.map_eq_some_iff] at ha
      obtain ⟨c, hc, rfl⟩ := ha
      exact ⟨ts, row.write c, hts, row.means.mp ⟨c, hc, rfl⟩, hto c⟩
    · rintro ⟨ts, ms, hts, heach, rfl⟩
      obtain ⟨c, hc, rfl⟩ := row.means.mpr heach
      refine ⟨e c, ?_, hto c⟩
      rw [hof, Tree.fields?_eq_some_iff.mpr hts, Option.bind_some,
        hrow ts (hts.length_eq.trans (List.length_map _)), hc]
      rfl

end Row

theorem decode?_eq_some_iff {α : Type} [Form α] {text : String} {a : α} :
    decode? text = some a ↔ ∃ t : Tree, t.Writes text.toList ∧ ofTree? t = some a := by
  rw [decode?, Option.bind_eq_bind, Option.bind_eq_some_iff]
  simp only [Tree.ofString?_eq_some_iff]

/-- The texts of a type whose trees have a shape. What is written is read back, and a text is read
as just the value that it means. A number beyond the bounds of its place, or a name that its place
does not have, is refused, wherever it stands. -/
structure Exact (α : Type) [Form α] (shape : Shape) : Prop where
  read_back (a : α) : decode? (encode a) = some a
  read_back_pretty (a : α) : decode? (toTree a).toPrettyString = some a
  encode_injective {a b : α} (h : encode a = encode b) : a = b
  reads {text : String} {u : Tree} : (∃ a : α, decode? text = some a ∧ toTree a = u) ↔
    ∃ t : Tree, t.Writes text.toList ∧ shape.Means t u
  number_refused {text : String} {t : Tree} (ht : t.Writes text.toList) {low high : Int}
    {n : Numeral} (hplace : Place shape t (.integer low high) (.number n))
    (hout : ∀ z : Int, low ≤ z → z ≤ high → n.value ≠ z) : (decode? text : Option α) = none
  name_refused {text : String} {t : Tree} (ht : t.Writes text.toList) {names : List String}
    {u : Tree} (hplace : Place shape t (.named names) u) {s : String} (hu : u.Tells s)
    (hunknown : s ∉ names) : (decode? text : Option α) = none

section Texts
variable {α : Type} [Form α] {shape : Shape}

theorem HasShape.plain (h : HasShape α shape) (a : α) : (toTree a).Plain :=
  (h.means.mp ⟨a, h.read a, rfl⟩).plain

theorem HasShape.decode?_encode (h : HasShape α shape) (a : α) : decode? (encode a) = some a := by
  rw [decode?, encode, (h.plain a).ofString?_toCompactString]
  exact h.read a

theorem HasShape.refuses (h : HasShape α shape) {text : String} {t u : Tree} {s : Shape}
    (ht : t.Writes text.toList) (hplace : Place shape t s u) (hu : ∀ v, ¬s.Means u v) :
    (decode? text : Option α) = none := by
  rw [Option.eq_none_iff_forall_ne_some]
  intro a ha
  obtain ⟨t', ht', hread⟩ := decode?_eq_some_iff.mp ha
  rw [← Tree.ofString?_eq_some_iff] at ht ht'
  obtain rfl : t = t' := Option.some.inj (ht.symm.trans ht')
  obtain ⟨v, hv⟩ := hplace.means ⟨_, h.means.mp ⟨a, hread, rfl⟩⟩
  exact hu v hv

theorem HasShape.exact (h : HasShape α shape) : Exact α shape where
  read_back := h.decode?_encode
  read_back_pretty a := by
    rw [decode?, (h.plain a).ofString?_toPrettyString]
    exact h.read a
  encode_injective {a b} hab := by
    have hsame := h.decode?_encode a
    rw [hab, h.decode?_encode b] at hsame
    exact (Option.some.inj hsame).symm
  reads {text u} := by
    simp only [decode?_eq_some_iff, ← h.means]
    constructor
    · rintro ⟨a, ⟨t, ht, ha⟩, rfl⟩
      exact ⟨t, ht, a, ha, rfl⟩
    · rintro ⟨t, ht, a, ha, rfl⟩
      exact ⟨a, ⟨t, ht, ha⟩, rfl⟩
  number_refused {text t} ht {low high n} hplace hout := by
    refine h.refuses ht hplace ?_
    rintro v ⟨_, z, heq, hn, hlow, hhigh, -⟩
    cases heq
    exact hout z hlow hhigh hn.value
  name_refused {text t} ht {names u} hplace {s} hu hunknown := by
    refine h.refuses ht hplace ?_
    rintro v ⟨s', hs', hu', -⟩
    rw [← Tree.name?_eq_some_iff] at hu hu'
    obtain rfl : s = s' := Option.some.inj (hu.symm.trans hu')
    exact hunknown hs'

end Texts

end Form

end VirtualModem.Json
