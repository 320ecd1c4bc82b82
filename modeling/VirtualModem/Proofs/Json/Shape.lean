import VirtualModem.Json.Form
import VirtualModem.Proofs.Json.NumeralValue
import VirtualModem.Proofs.Json.ReadBack
/-!
# Shapes of trees

A shape says which trees a type has: between which bounds its integers lie, how its values are
named, which fields its records have. What a tree of a shape means is told by the one tree that is
written for it, however names are spelled, in whatever order members stand and whatever other
members there are. A tree has a shape only if each tree in it has the shape of its place, so that a
number beyond its bounds or an unknown name is never passed over.
-/

namespace VirtualModem.Json
set_option autoImplicit false

theorem mapM_eq_some_iff {α β : Type} {f : α → Option β} {as : List α} {bs : List β} :
    as.mapM f = some bs ↔ List.Forall₂ (fun a b => f a = some b) as bs := by
  induction as generalizing bs with
  | nil => simp [eq_comm]
  | cons a as ih =>
    simp only [List.mapM_cons, Option.bind_eq_bind, Option.bind_eq_some_iff, Option.pure_def,
      Option.some.injEq, List.forall₂_cons_left_iff, ih]
    constructor
    · rintro ⟨b, hb, bs, hbs, rfl⟩
      exact ⟨b, bs, hb, hbs, rfl⟩
    · rintro ⟨b, bs, hb, hbs, rfl⟩
      exact ⟨b, hb, bs, hbs, rfl⟩

theorem exists_of_forall₂ {α β : Type} {R : α → β → Prop} {as : List α} {bs : List β}
    (h : List.Forall₂ R as bs) {a : α} (ha : a ∈ as) : ∃ b, R a b := by
  induction h with
  | nil => cases ha
  | cons hab _ ih =>
    rcases List.mem_cons.mp ha with rfl | ha
    · exact ⟨_, hab⟩
    · exact ih ha

namespace Tree

/-- A name is a string, or the one key of an object that has `null` under it. -/
inductive Tells : Tree → String → Prop
  | string {text : List Piece} {s : String} (h : string? text = some s) : Tells (.string text) s
  | key {key : List Piece} {s : String} (h : string? key = some s) :
    Tells (.object [(key, .null)]) s

theorem name?_eq_some_iff {t : Tree} {s : String} : t.name? = some s ↔ t.Tells s := by
  constructor
  · intro h
    unfold name? at h
    split at h
    · exact .string h
    · exact .key h
    · cases h
  · intro h
    cases h with
    | string h => exact h
    | key h => exact h

def under (name : String) (members : List (List Piece × Tree)) : List Tree :=
  (members.filter fun m => string? m.1 = some name).map (·.2)

/-- The trees of a record's fields in the order of their names. An array has an item for each name;
in an object every key can be read, and one tree stands under each of the names. -/
inductive Fields : Tree → List String → List Tree → Prop
  | array {items : List Tree} {names : List String} (h : items.length = names.length) :
    Fields (.array items) names items
  | object {members : List (List Piece × Tree)} {names : List String} {ts : List Tree}
    (hkeys : ∀ m ∈ members, (string? m.1).isSome)
    (hnames : List.Forall₂ (fun name t => under name members = [t]) names ts) :
    Fields (.object members) names ts

theorem keyed?_cons_eq_some_iff {m : List Piece × Tree} {members : List (List Piece × Tree)}
    {keyed : List (String × Tree)} :
    keyed? (m :: members) = some keyed ↔ ∃ key rest, string? m.1 = some key ∧
      keyed? members = some rest ∧ keyed = (key, m.2) :: rest := by
  simp only [keyed?, List.mapM_cons, Option.bind_eq_bind, Option.bind_eq_some_iff,
    Option.map_eq_some_iff, Option.pure_def, Option.some.injEq]
  constructor
  · rintro ⟨_, ⟨key, hkey, rfl⟩, rest, hrest, rfl⟩
    exact ⟨key, rest, hkey, hrest, rfl⟩
  · rintro ⟨key, rest, hkey, hrest, rfl⟩
    exact ⟨_, ⟨key, hkey, rfl⟩, rest, hrest, rfl⟩

theorem exists_keyed?_iff {members : List (List Piece × Tree)} :
    (∃ keyed, keyed? members = some keyed) ↔ ∀ m ∈ members, (string? m.1).isSome := by
  induction members with
  | nil => exact ⟨fun _ => List.forall_mem_nil _, fun _ => ⟨[], rfl⟩⟩
  | cons m members ih =>
    rw [List.forall_mem_cons, ← ih, Option.isSome_iff_exists]
    constructor
    · rintro ⟨_, h⟩
      obtain ⟨key, rest, hkey, hrest, -⟩ := keyed?_cons_eq_some_iff.mp h
      exact ⟨⟨key, hkey⟩, rest, hrest⟩
    · rintro ⟨⟨key, hkey⟩, rest, hrest⟩
      exact ⟨_, keyed?_cons_eq_some_iff.mpr ⟨key, rest, hkey, hrest, rfl⟩⟩

theorem under_of_keyed? {members : List (List Piece × Tree)} {keyed : List (String × Tree)}
    (h : keyed? members = some keyed) (name : String) :
    (keyed.filter (·.1 = name)).map (·.2) = under name members := by
  induction members generalizing keyed with
  | nil =>
    cases h
    rfl
  | cons m members ih =>
    obtain ⟨key, rest, hkey, hrest, rfl⟩ := keyed?_cons_eq_some_iff.mp h
    have hsame := ih hrest
    unfold under at hsame ⊢
    by_cases hname : key = name
    · simp [hkey, hname, hsame]
    · simp [hkey, hname, hsame]

theorem member?_eq_some_iff {keyed : List (String × Tree)} {name : String} {t : Tree} :
    member? keyed name = some t ↔ (keyed.filter (·.1 = name)).map (·.2) = [t] := by
  unfold member?
  split
  · rename_i hfilter
    simp [hfilter]
  · rename_i hfilter
    constructor
    · exact nofun
    · intro h
      obtain ⟨p, hp, -⟩ := List.map_eq_singleton_iff.mp h
      exact absurd hp (hfilter p.1 p.2)

theorem fields?_eq_some_iff {t : Tree} {names : List String} {ts : List Tree} :
    t.fields? names = some ts ↔ t.Fields names ts := by
  constructor
  · intro h
    unfold fields? at h
    split at h
    · rw [Option.ite_none_right_eq_some, Option.some.injEq] at h
      obtain ⟨hlength, rfl⟩ := h
      exact .array hlength
    · rw [Option.bind_eq_bind, Option.bind_eq_some_iff] at h
      obtain ⟨keyed, hkeyed, hts⟩ := h
      refine .object (exists_keyed?_iff.mp ⟨keyed, hkeyed⟩) ?_
      refine (mapM_eq_some_iff.mp hts).imp fun name t ht => ?_
      rw [← under_of_keyed? hkeyed]
      exact member?_eq_some_iff.mp ht
    · cases h
  · intro h
    cases h with
    | array hlength => exact if_pos hlength
    | object hkeys hnames =>
      obtain ⟨keyed, hkeyed⟩ := exists_keyed?_iff.mpr hkeys
      rw [fields?, hkeyed, Option.bind_eq_bind, Option.bind_some]
      refine mapM_eq_some_iff.mpr (hnames.imp fun name t ht => ?_)
      rw [← under_of_keyed? hkeyed] at ht
      exact member?_eq_some_iff.mpr ht

theorem Fields.length_eq {t : Tree} {names : List String} {ts : List Tree}
    (h : t.Fields names ts) : ts.length = names.length := by
  cases h with
  | array h => exact h
  | object _ hnames => exact hnames.length_eq.symm

end Tree

inductive Shape
  | integer (low high : Int)
  | named (names : List String)
  | text
  | list (item : Shape)
  | record (fields : List (String × Shape))

namespace Shape

mutual

/-- The tree has the shape, and means what is written as the second tree. -/
def Means : Shape → Tree → Tree → Prop
  | .integer low high, t, u =>
    ∃ n z, t = .number n ∧ n.IsInteger z ∧ low ≤ z ∧ z ≤ high ∧ u = .ofInt z
  | .named names, t, u => ∃ s ∈ names, t.Tells s ∧ u = .ofString s
  | .text, t, u => ∃ text s, t = .string text ∧ string? text = some s ∧ u = .ofString s
  | .list item, t, u =>
    ∃ ts us, t = .array ts ∧ List.Forall₂ item.Means ts us ∧ u = .array us
  | .record fields, t, u =>
    ∃ ts ms, t.Fields (fields.map (·.1)) ts ∧ MeansEach fields ts ms ∧ u = .ofFields ms

def MeansEach : List (String × Shape) → List Tree → List (String × Tree) → Prop
  | [], [], [] => True
  | (name, shape) :: fields, t :: ts, (key, u) :: ms =>
    key = name ∧ shape.Means t u ∧ MeansEach fields ts ms
  | _, _, _ => False

end

theorem forall₂_of_meansEach {fields : List (String × Shape)} {ts : List Tree}
    {ms : List (String × Tree)} (h : MeansEach fields ts ms) :
    List.Forall₂ (fun f t => ∃ u, f.2.Means t u) fields ts := by
  induction fields generalizing ts ms with
  | nil =>
    cases ts with
    | nil => exact .nil
    | cons t ts => cases ms <;> exact h.elim
  | cons f fields ih =>
    cases ts with
    | nil => cases ms <;> exact h.elim
    | cons t ts =>
      cases ms with
      | nil => exact h.elim
      | cons m ms => exact .cons ⟨m.2, h.2.1⟩ (ih h.2.2)

/-- Where a tree stands in another one, with the shape of its place. -/
inductive Place : Shape → Tree → Shape → Tree → Prop
  | here {shape : Shape} {t : Tree} : Place shape t shape t
  | item {item shape : Shape} {ts : List Tree} {t u : Tree} (ht : t ∈ ts)
    (h : Place item t shape u) : Place (.list item) (.array ts) shape u
  | entry {fields : List (String × Shape)} {f : String × Shape} {shape : Shape} {ts : List Tree}
    {t u : Tree} (ht : (f, t) ∈ fields.zip ts) (h : Place f.2 t shape u) :
    Place (.record fields) (.array ts) shape u
  | member {fields : List (String × Shape)} {f : String × Shape} {shape : Shape}
    {members : List (List Piece × Tree)} {m : List Piece × Tree} {u : Tree} (hf : f ∈ fields)
    (hm : m ∈ members) (hkey : string? m.1 = some f.1) (h : Place f.2 m.2 shape u) :
    Place (.record fields) (.object members) shape u

theorem Place.means {s s' : Shape} {t t' : Tree} (h : Place s t s' t') (ht : ∃ u, s.Means t u) :
    ∃ u, s'.Means t' u := by
  induction h with
  | here => exact ht
  | item hmem _ ih =>
    obtain ⟨_, _, us, heq, hitems, -⟩ := ht
    cases heq
    exact ih (exists_of_forall₂ hitems hmem)
  | entry hmem _ ih =>
    obtain ⟨_, ts, ms, hfields, heach, -⟩ := ht
    cases hfields with
    | array => exact ih (List.forall₂_zip (forall₂_of_meansEach heach) hmem)
  | @member fields f shape members m u hf hm hkey _ ih =>
    obtain ⟨_, ts, ms, hfields, heach, -⟩ := ht
    cases hfields with
    | object _ hnames =>
      rw [List.forall₂_map_left_iff] at hnames
      have hboth := List.Forall₂.mp (fun _ _ => And.intro) hnames (forall₂_of_meansEach heach)
      obtain ⟨t, hunder, ht⟩ := exists_of_forall₂ hboth hf
      -- no other member has the name, so this is the one that the record's field is read from
      have hmem : m.2 ∈ Tree.under f.1 members :=
        List.mem_map_of_mem (List.mem_filter.mpr ⟨hm, decide_eq_true hkey⟩)
      rw [hunder, List.mem_singleton] at hmem
      rw [hmem] at ih
      exact ih ht

mutual

theorem Means.plain {s : Shape} {t u : Tree} (h : s.Means t u) : u.Plain := by
  match s with
  | .integer low high =>
    obtain ⟨n, z, -, -, -, -, rfl⟩ := h
    exact .integer z
  | .named names =>
    obtain ⟨s, -, -, rfl⟩ := h
    exact .string s
  | .text =>
    obtain ⟨text, s, -, -, rfl⟩ := h
    exact .string s
  | .list item =>
    obtain ⟨ts, us, -, hitems, rfl⟩ := h
    refine .array fun u hu => ?_
    obtain ⟨t, ht⟩ := exists_of_forall₂ hitems.flip hu
    exact ht.plain
  | .record fields =>
    obtain ⟨ts, ms, -, heach, rfl⟩ := h
    exact .object (plain_of_meansEach heach)

theorem plain_of_meansEach {fields : List (String × Shape)} {ts : List Tree}
    {ms : List (String × Tree)} (h : MeansEach fields ts ms) : ∀ m ∈ ms, m.2.Plain := by
  match fields, ts, ms with
  | [], [], [] => exact List.forall_mem_nil _
  | (name, shape) :: fields, t :: ts, (key, u) :: ms =>
    exact List.forall_mem_cons.mpr ⟨h.2.1.plain, plain_of_meansEach h.2.2⟩

end

end Shape

end VirtualModem.Json
